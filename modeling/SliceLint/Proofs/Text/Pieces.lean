import SliceLint.Text.Lines
import Mathlib.Data.List.TakeWhile

/-!
# Cut and trimmed texts

`cut` gives the pieces between separators, as `List.splitOn` does. What `trimList` leaves of a text
neither starts nor ends with what was to go.

**Occurrences.** A separator and a word occur where the word starts a piece
(`occurs_cons_iff_exists_piece`), and a word between separators occurs where it is a piece
(`occurs_cons_concat_iff_mem`). What occurs in a text is so told by its pieces one by one.
-/

namespace SliceLint.Text

/-! ## Cutting -/

theorem cut_eq_splitOn (sep : Char) (cs : List Char) : cut sep cs = cs.splitOn sep := by
  induction cs with
  | nil => rfl
  | cons c cs ih =>
    rw [cut, List.splitOn_cons_eq_if_modifyHead, ih]
    by_cases hc : c = sep
    · rw [if_pos hc, if_pos (beq_iff_eq.2 hc)]
    · rw [if_neg hc, if_neg (by simpa using hc)]
      cases hpieces : cs.splitOn sep with
      | nil => exact absurd hpieces (List.splitOn_ne_nil sep cs)
      | cons piece pieces => rfl

theorem notMem_of_mem_cut {sep : Char} {cs piece : List Char} (h : piece ∈ cut sep cs) :
    sep ∉ piece := by
  induction cs generalizing piece with
  | nil =>
    rw [List.mem_singleton.1 h]
    exact List.not_mem_nil
  | cons c cs ih =>
    rw [cut] at h
    split at h
    · rcases List.mem_cons.1 h with rfl | h
      · exact List.not_mem_nil
      · exact ih h
    · rename_i hc
      cases hpieces : cut sep cs with
      | nil =>
        rw [cut_eq_splitOn] at hpieces
        exact absurd hpieces (List.splitOn_ne_nil sep cs)
      | cons first others =>
        rw [hpieces] at h ih
        rcases List.mem_cons.1 h with rfl | h
        · rw [List.mem_cons, not_or]
          exact ⟨Ne.symm hc, ih List.mem_cons_self⟩
        · exact ih (List.mem_cons_of_mem _ h)

theorem subset_of_mem_cut {sep : Char} {cs piece : List Char} (h : piece ∈ cut sep cs) :
    piece ⊆ cs := by
  induction cs generalizing piece with
  | nil =>
    rw [List.mem_singleton.1 h]
    exact List.Subset.refl []
  | cons c cs ih =>
    rw [cut] at h
    split at h
    · rcases List.mem_cons.1 h with rfl | h
      · exact List.nil_subset _
      · exact List.subset_cons_of_subset c (ih h)
    · split at h
      · rw [List.mem_singleton.1 h]
        exact List.cons_subset_cons c (List.nil_subset cs)
      · rename_i first others hpieces
        rw [hpieces] at ih
        rcases List.mem_cons.1 h with rfl | h
        · exact List.cons_subset_cons c (ih List.mem_cons_self)
        · exact List.subset_cons_of_subset c (ih (List.mem_cons_of_mem _ h))

/-- A text that is read backwards up to a character that it lacks is read in full. -/
theorem bne_of_mem_reverse {sep : Char} {cs : List Char} (h : sep ∉ cs) :
    ∀ c ∈ cs.reverse, (c != sep) = true := by
  intro c hc
  rw [List.mem_reverse] at hc
  exact bne_iff_ne.2 fun heq => h (heq ▸ hc)

theorem cut_of_notMem {sep : Char} {cs : List Char} (h : sep ∉ cs) : cut sep cs = [cs] := by
  rw [cut_eq_splitOn, List.splitOn_eq_singleton h]

theorem cut_append_cons_self (sep : Char) (cs rest : List Char) :
    cut sep (cs ++ sep :: rest) = cut sep cs ++ cut sep rest := by
  rw [cut_eq_splitOn, cut_eq_splitOn, cut_eq_splitOn, List.splitOn_append_cons_self]

theorem cut_append_cons {sep : Char} {first : List Char} (h : sep ∉ first) (rest : List Char) :
    cut sep (first ++ sep :: rest) = first :: cut sep rest := by
  rw [cut_append_cons_self, cut_of_notMem h, List.singleton_append]

/-! ## Trimming -/

theorem head?_dropWhile {p : Char → Bool} {cs : List Char} {c : Char}
    (h : (cs.dropWhile p).head? = some c) : p c = false := by
  have hnot := List.head?_dropWhile_not p cs
  rwa [h] at hnot

theorem head?_trimList {p : Char → Bool} {cs : List Char} {c : Char}
    (h : (trimList p cs).head? = some c) : p c = false := by
  rw [trimList, List.head?_reverse] at h
  obtain ⟨front, hfront⟩ := List.dropWhile_suffix p (l := (cs.dropWhile p).reverse)
  have hlast : (cs.dropWhile p).reverse.getLast? = some c := by
    rw [← hfront, List.getLast?_append, h, Option.some_or]
  rw [List.getLast?_reverse] at hlast
  exact head?_dropWhile hlast

theorem getLast?_trimList {p : Char → Bool} {cs : List Char} {c : Char}
    (h : (trimList p cs).getLast? = some c) : p c = false := by
  rw [trimList, List.getLast?_reverse] at h
  exact head?_dropWhile h

theorem trim_of_ends {c : Char} {s : String} (hhead : s.toList.head? ≠ some c)
    (hlast : s.toList.getLast? ≠ some c) : trim c s = s := by
  have hkept : ∀ cs : List Char, cs.head? ≠ some c → cs.dropWhile (· == c) = cs := by
    intro cs hcs
    cases cs with
    | nil => rfl
    | cons c' cs =>
      refine List.dropWhile_cons_of_neg fun heq => hcs ?_
      rw [beq_iff_eq.1 heq, List.head?_cons]
  rw [trim, trimList, hkept s.toList hhead, hkept _ (by rwa [List.head?_reverse]),
    List.reverse_reverse, String.ofList_toList]

theorem trim_of_notMem {c : Char} {s : String} (h : c ∉ s.toList) : trim c s = s :=
  trim_of_ends (fun hhead => h (List.mem_of_head? hhead)) fun hlast =>
    h (List.mem_of_getLast? hlast)

theorem trimList_concat {p : Char → Bool} {c : Char} (hc : p c) (cs : List Char) :
    trimList p (cs ++ [c]) = trimList p cs := by
  rw [trimList, trimList, List.dropWhile_append]
  split
  · rename_i hall
    rw [List.isEmpty_iff.1 hall]
    simp [hc]
  · rw [List.reverse_concat, List.dropWhile_cons_of_pos hc]

theorem trimList_eq_nil_iff {p : Char → Bool} {cs : List Char} :
    trimList p cs = [] ↔ ∀ c ∈ cs, p c = true := by
  rw [trimList, List.reverse_eq_nil_iff, List.dropWhile_eq_nil_iff]
  constructor
  · intro h c hc
    rw [← List.takeWhile_append_dropWhile (p := p) (l := cs), List.mem_append] at hc
    rcases hc with hc | hc
    · exact List.mem_takeWhile_imp hc
    · exact h c (List.mem_reverse.2 hc)
  · intro h c hc
    exact h c ((List.dropWhile_sublist p).subset (List.mem_reverse.1 hc))

theorem trim_eq_empty_iff {c : Char} {s : String} : trim c s = "" ↔ ∀ d ∈ s.toList, d = c := by
  have hnil : trim c s = "" ↔ trimList (· == c) s.toList = [] := by
    rw [← String.toList_eq_nil_iff, trim, String.toList_ofList]
  simp only [hnil, trimList_eq_nil_iff, beq_iff_eq]

/-! ## Occurrences behind a separator -/

section Occurrences

variable {sep : Char} {word : List Char}

theorem exists_cut_eq_cons (sep : Char) (cs : List Char) :
    ∃ first rest, cut sep cs = first :: rest := by
  rw [cut_eq_splitOn]
  exact List.exists_cons_of_ne_nil (List.splitOn_ne_nil sep cs)

/-- A word without separators starts a text when it starts the first piece of the text. -/
theorem prefix_iff_prefix_piece (hword : sep ∉ word) {cs first : List Char}
    {rest : List (List Char)} (hcut : cut sep cs = first :: rest) :
    word <+: cs ↔ word <+: first := by
  induction word generalizing cs first rest with
  | nil => simp
  | cons w word ih =>
    rw [List.mem_cons, not_or] at hword
    cases cs with
    | nil =>
      cases hcut
      exact Iff.rfl
    | cons c cs =>
      rw [cut] at hcut
      split at hcut
      · rename_i hc
        cases hcut
        simp [List.cons_prefix_cons, hc, Ne.symm hword.1]
      · obtain ⟨piece, pieces, hpieces⟩ := exists_cut_eq_cons sep cs
        rw [hpieces] at hcut
        cases hcut
        rw [List.cons_prefix_cons, List.cons_prefix_cons, ih hword.2 hpieces]

/-- A word and a separator start a text when the word is the first piece and not the last. -/
theorem prefix_concat_iff (hword : sep ∉ word) {cs first : List Char}
    {rest : List (List Char)} (hcut : cut sep cs = first :: rest) :
    word ++ [sep] <+: cs ↔ word = first ∧ rest ≠ [] := by
  induction word generalizing cs first rest with
  | nil =>
    cases cs with
    | nil =>
      cases hcut
      simp
    | cons c cs =>
      rw [cut] at hcut
      obtain ⟨piece, pieces, hpieces⟩ := exists_cut_eq_cons sep cs
      split at hcut
      · rename_i hc
        cases hcut
        simp [List.cons_prefix_cons, hc, hpieces]
      · rename_i hc
        rw [hpieces] at hcut
        cases hcut
        simp [List.cons_prefix_cons, Ne.symm hc]
  | cons w word ih =>
    rw [List.mem_cons, not_or] at hword
    cases cs with
    | nil =>
      cases hcut
      simp
    | cons c cs =>
      rw [cut] at hcut
      obtain ⟨piece, pieces, hpieces⟩ := exists_cut_eq_cons sep cs
      split at hcut
      · rename_i hc
        cases hcut
        simp [List.cons_prefix_cons, hc, Ne.symm hword.1]
      · rw [hpieces] at hcut
        cases hcut
        rw [List.cons_append, List.cons_prefix_cons, ih hword.2 hpieces]
        simp [and_assoc]

theorem occurs_cons {needle : List Char} {c : Char} {cs : List Char} :
    occurs needle (c :: cs) = true ↔ needle <+: c :: cs ∨ occurs needle cs = true := by
  rw [occurs, Bool.or_eq_true, List.isPrefixOf_iff_prefix]

theorem occurs_iff_infix {needle cs : List Char} : occurs needle cs = true ↔ needle <:+: cs := by
  induction cs with
  | nil => rw [occurs, List.isEmpty_iff, List.infix_nil]
  | cons c cs ih => rw [occurs_cons, ih, List.infix_cons_iff]

/-- A separator and a word occur in a text where the word starts a piece other than the first. -/
theorem occurs_iff_exists_tail (hword : sep ∉ word) (cs : List Char) :
    occurs (sep :: word) cs = true ↔ ∃ piece ∈ (cut sep cs).tail, word <+: piece := by
  induction cs with
  | nil => simp [occurs, cut]
  | cons c cs ih =>
    obtain ⟨piece, pieces, hpieces⟩ := exists_cut_eq_cons sep cs
    rw [occurs_cons, List.cons_prefix_cons, prefix_iff_prefix_piece hword hpieces, ih, hpieces,
      cut]
    split
    · rename_i hc
      simp [hc, hpieces]
    · rename_i hc
      simp [Ne.symm hc, hpieces]

/-- Behind a separator, a separator and a word occur where the word starts a piece. -/
theorem occurs_cons_iff_exists_piece (hword : sep ∉ word) (cs : List Char) :
    occurs (sep :: word) (sep :: cs) = true ↔ ∃ piece ∈ cut sep cs, word <+: piece := by
  rw [occurs_iff_exists_tail hword, cut, if_pos rfl, List.tail_cons]

/-- A word between separators occurs in a text where it is a piece other than the first and the
last. -/
theorem occurs_concat_iff_mem_tail (hword : sep ∉ word) (cs : List Char) :
    occurs (sep :: (word ++ [sep])) cs = true ↔ word ∈ (cut sep cs).tail.dropLast := by
  induction cs with
  | nil => simp [occurs, cut]
  | cons c cs ih =>
    obtain ⟨piece, pieces, hpieces⟩ := exists_cut_eq_cons sep cs
    rw [occurs_cons, List.cons_prefix_cons, prefix_concat_iff hword hpieces, ih, hpieces, cut]
    split
    · rename_i hc
      cases pieces with
      | nil => simp [hpieces]
      | cons next pieces => simp [hc, hpieces]
    · rename_i hc
      simp [Ne.symm hc, hpieces]

/-- Behind a separator, a word between separators occurs where it is a piece other than the
last. -/
theorem occurs_cons_concat_iff_mem (hword : sep ∉ word) (cs : List Char) :
    occurs (sep :: (word ++ [sep])) (sep :: cs) = true ↔ word ∈ (cut sep cs).dropLast := by
  rw [occurs_concat_iff_mem_tail hword, cut, if_pos rfl, List.tail_cons]

end Occurrences
end SliceLint.Text
