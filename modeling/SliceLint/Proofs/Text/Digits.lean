import Mathlib.Data.List.Basic
import Mathlib.Data.Nat.Digits.Defs

/-!
# Digits of numbers

What stands in a number that is written out is a digit, or the sign in front of it, and something
does.
-/

namespace SliceLint

theorem notMem_toDigits {c : Char} (hc : c.isDigit = false) (n : Nat) : c ∉ Nat.toDigits 10 n := by
  intro hmem
  rw [Nat.isDigit_of_mem_toDigits (by decide) (by decide) hmem] at hc
  cases hc

theorem notMem_toString_int {c : Char} (hc : c.isDigit = false) (hminus : c ≠ '-') (n : Int) :
    c ∉ (toString n).toList := by
  have hdigits : ∀ m : Nat, c ∉ m.repr.toList := by
    intro m
    rw [Nat.toList_repr]
    exact notMem_toDigits hc m
  rw [Int.toString_eq_repr, Int.repr_eq_if]
  split
  · exact hdigits _
  · rw [String.toList_append, List.mem_append, not_or]
    exact ⟨by simpa using hminus, hdigits _⟩

theorem toString_int_ne_empty (n : Int) : toString n ≠ "" := by
  cases n <;> simp [toString, Int.repr]

end SliceLint
