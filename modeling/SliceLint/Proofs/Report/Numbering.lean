import SliceLint.Report.Violation
import SliceLint.Proofs.Text.Digits
import Mathlib.Data.List.Forall2

/-!
# Violations and their numbers

The number of a violation counts the reports on its file. It stands in the identifier and nowhere
else, so two runs may report the same under different numbers.

The identifier tells both the file and the number (`idOf_inj`): the number is what stands behind the
last `#`, also where there are more of them in the name of the file.
-/

namespace SliceLint.Violation

/-- The violation under a number. -/
def numbered (v : Violation) (n : Nat) : Violation := { v with id := idOf v.file n }

/-- Two violations that agree in everything but the numbers they stand under. -/
def SameButNumber (v w : Violation) : Prop :=
  ∃ u : Violation, ∃ m n : Nat, v = u.numbered m ∧ w = u.numbered n

theorem sameButNumber_numbered (u : Violation) (m n : Nat) :
    (u.numbered m).SameButNumber (u.numbered n) := ⟨u, m, n, rfl, rfl⟩

/-! ## Identifiers -/

/-- What stands before and behind the last occurrence of a member decides the whole. -/
theorem append_cons_inj_of_notMem_right {α : Type} {a : α} {front front' back back' : List α}
    (hback : a ∉ back) (hback' : a ∉ back') :
    front ++ a :: back = front' ++ a :: back' ↔ front = front' ∧ back = back' := by
  constructor
  · intro h
    induction front generalizing front' with
    | nil =>
      cases front' with
      | nil => exact ⟨rfl, (List.cons.inj h).2⟩
      | cons x front' =>
        refine absurd ?_ hback
        rw [(List.cons.inj h).2]
        exact List.mem_append_right _ List.mem_cons_self
    | cons x front ih =>
      cases front' with
      | nil =>
        refine absurd ?_ hback'
        rw [← (List.cons.inj h).2]
        exact List.mem_append_right _ List.mem_cons_self
      | cons y front' =>
        obtain ⟨rfl, hrest⟩ := List.cons.inj h
        obtain ⟨rfl, rfl⟩ := ih hrest
        exact ⟨rfl, rfl⟩
  · rintro ⟨rfl, rfl⟩
    rfl

theorem toList_idOf (file : String) (n : Nat) :
    (idOf file n).toList = file.toList ++ '#' :: Nat.toDigits 10 n := by
  simp [idOf]

/-- **Identifiers.** A file and a number have an identifier of their own. -/
theorem idOf_inj {file file' : String} {m n : Nat} :
    idOf file m = idOf file' n ↔ file = file' ∧ m = n := by
  constructor
  · intro h
    have hchars := congrArg String.toList h
    rw [toList_idOf, toList_idOf,
      append_cons_inj_of_notMem_right (notMem_toDigits rfl m) (notMem_toDigits rfl n)] at hchars
    have hnumber := congrArg (fun digits => Nat.ofDigitChars 10 digits 0) hchars.2
    rw [Nat.ofDigitChars_ten_toDigits, Nat.ofDigitChars_ten_toDigits] at hnumber
    exact ⟨String.toList_inj.1 hchars.1, hnumber⟩
  · rintro ⟨rfl, rfl⟩
    rfl

/-- A name with a number of its own does not hide where the file ends. -/
example : idOf "a.ts#1" 2 ≠ idOf "a.ts" 12 := fun h => absurd (idOf_inj.1 h).1 (by decide)

end SliceLint.Violation
