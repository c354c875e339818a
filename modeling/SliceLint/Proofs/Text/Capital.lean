import SliceLint.Text.Case

/-!
# Capital forms

**Letters** (`capital_of_letter`). The capital form of an ASCII letter is one letter, and is told
from it by case alone.

**Blanks and marks** (`eq_of_mem_capital`). No capital form has a blank, a hyphen, an underscore or
a point in it, but those of these characters themselves.
-/

namespace SliceLint.Text

/-! ## The form of a character -/

/-- A character may stand in the capital form of another. -/
inductive Capitalizes (c : Char) : Char → Prop where
  | ascii : c.toNat < 128 → Capitalizes c c.toUpper
  | long {n : Nat} {codes : List Nat} {code : Nat} :
    (n, codes) ∈ longCapitals → code ∈ codes → Capitalizes c (Char.ofNat code)
  | run {first last stride upper : Nat} :
    (first, last, stride, upper) ∈ capitalRuns → c.toNat ≤ last →
      Capitalizes c (Char.ofNat (upper + (c.toNat - first)))
  | same : Capitalizes c c

theorem capitalizes_of_mem {c u : Char} (h : u ∈ capital c) : Capitalizes c u := by
  rw [capital] at h
  split at h
  · rename_i hascii
    rw [List.mem_singleton.1 h]
    exact .ascii hascii
  · split at h
    · rename_i n codes hlong
      obtain ⟨code, hcode, rfl⟩ := List.mem_map.1 h
      exact .long (List.mem_of_find?_eq_some hlong) hcode
    · dsimp only at h
      split at h
      · rename_i first last stride upper hrun
        rw [List.mem_singleton.1 h]
        have hrange := List.find?_some hrun
        simp only [Bool.and_eq_true, decide_eq_true_eq] at hrange
        exact .run (List.mem_of_find?_eq_some hrun) hrange.1.2
      · rw [List.mem_singleton.1 h]
        exact .same

theorem capital_ne_nil (c : Char) : capital c ≠ [] := by
  have hlong : ∀ entry ∈ longCapitals, entry.2 ≠ [] := by decide +kernel
  rw [capital]
  split
  · exact List.cons_ne_nil _ _
  · split
    · rename_i n codes hfind
      rw [ne_eq, List.map_eq_nil_iff]
      exact hlong _ (List.mem_of_find?_eq_some hfind)
    · dsimp only
      split <;> exact List.cons_ne_nil _ _

/-! ## Letters -/

/-- What holds of the characters of ASCII one by one holds of them all. -/
theorem forall_ascii {p : Char → Prop} (h : ∀ n < 128, p (Char.ofNat n)) {c : Char}
    (hc : c.toNat < 128) : p c := by
  have hchar := h c.toNat hc
  rwa [Char.ofNat_toNat] at hchar

/-- A character with a small letter as its small form is one of ASCII. -/
theorem toNat_lt_of_isLower_toLower {c : Char} (h : c.toLower.isLower = true) :
    c.toNat < 128 := by
  have hcode : c.toNat = c.val.toNat := rfl
  have hcapital : 'Z'.val.toNat = 90 := rfl
  have hsmall : 'z'.val.toNat = 122 := rfl
  unfold Char.toLower at h
  split at h
  · rename_i hrange
    have hle := UInt32.le_iff_toNat_le.1 hrange.2
    omega
  · unfold Char.isLower at h
    rw [Bool.and_eq_true, decide_eq_true_eq, decide_eq_true_eq] at h
    have hle := UInt32.le_iff_toNat_le.1 h.2
    omega

/-- The capital form of a letter is one letter, with the same small form. -/
theorem capital_of_letter {c : Char} (h : c.toLower.isLower = true) :
    ∃ u, capital c = [u] ∧ u.toLower = c.toLower := by
  have hascii := toNat_lt_of_isLower_toLower h
  refine ⟨c.toUpper, by rw [capital, if_pos hascii], ?_⟩
  exact forall_ascii (p := fun c => c.toUpper.toLower = c.toLower) (by decide +kernel) hascii

/-! ## Blanks and marks -/

/-- The codes of the blanks, the hyphen, the point and the underscore. -/
def caselessCodes : List Nat :=
  [9, 10, 11, 12, 13, 28, 29, 30, 31, 32, 45, 46, 95, 133, 160, 5760, 8192, 8193, 8194, 8195, 8196,
    8197, 8198, 8199, 8200, 8201, 8202, 8232, 8233, 8239, 8287, 12288]

theorem notMem_caselessCodes {n : Nat} (h : n ∉ caselessCodes) :
    (Char.ofNat n).toNat ∉ caselessCodes := by
  rw [Char.ofNat]
  by_cases hvalid : n.isValidChar
  · rwa [dif_pos hvalid]
  · rw [dif_neg hvalid]
    decide

theorem eq_of_mem_capital {c u : Char} (h : u ∈ capital c) (hu : u.toNat ∈ caselessCodes) :
    u = c := by
  have hlong : ∀ entry ∈ longCapitals, ∀ code ∈ entry.2, code ∉ caselessCodes := by decide +kernel
  have hruns : ∀ run ∈ capitalRuns, ∀ code ∈ caselessCodes,
      code < run.2.2.2 ∨ run.2.2.2 + (run.2.1 - run.1) < code := by decide +kernel
  cases capitalizes_of_mem h with
  | ascii hascii =>
    exact forall_ascii (p := fun c => c.toUpper.toNat ∈ caselessCodes → c.toUpper = c)
      (by decide +kernel) hascii hu
  | long hentry hcode => exact absurd hu (notMem_caselessCodes (hlong _ hentry _ hcode))
  | @run first last stride upper hrun hlast =>
    refine absurd hu (notMem_caselessCodes fun hcode => ?_)
    have hout := hruns _ hrun _ hcode
    dsimp only at hout
    omega
  | same => rfl

end SliceLint.Text
