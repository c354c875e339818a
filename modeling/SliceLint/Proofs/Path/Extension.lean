import SliceLint.Project.Selection
import SliceLint.Proofs.Path.Resolution

/-!
# Extensions and suffixes

The extension of a name starts at its last point, where some other character stands in front of that
point (`Path.exists_of_splitName`). Its suffix starts at the last point too, where anything stands in
front and anything follows. So an extension that is more than a point is the suffix as well
(`Path.suffix_eq_extension`), and the extensions of source files are those that select a dialect
(`Selection.isSource_iff`).
-/

namespace SliceLint

namespace Path

/-! ## Names -/

/-- Where a character occurs, its last place cuts a text into what stands in front and behind. -/
theorem eq_append_of_dropWhile_reverse {cs stem : List Char} {c d : Char}
    (h : cs.reverse.dropWhile (· != c) = d :: stem) :
    cs = stem.reverse ++ c :: (cs.reverse.takeWhile (· != c)).reverse := by
  have hd : d = c := by
    have hhead : (cs.reverse.dropWhile (· != c)).head? = some d := by rw [h]; rfl
    simpa using Text.head?_dropWhile hhead
  have hsplit : cs.reverse.takeWhile (· != c) ++ c :: stem = cs.reverse := by
    rw [hd] at h
    rw [← h]
    exact List.takeWhile_append_dropWhile
  have hreverse := congrArg List.reverse hsplit
  simp only [List.reverse_append, List.reverse_cons, List.reverse_reverse, List.append_assoc,
    List.singleton_append] at hreverse
  exact hreverse.symm

theorem drop_length_takeWhile (p : Char → Bool) (cs : List Char) :
    cs.drop (cs.takeWhile p).length = cs.dropWhile p := by
  have hdrop := congrArg (List.drop (cs.takeWhile p).length)
    (List.takeWhile_append_dropWhile (p := p) (l := cs))
  rw [List.drop_left] at hdrop
  exact hdrop.symm

/-- An extension starts at the last point of a name, and something stands in front of it. -/
theorem exists_of_splitName {cs : List Char} (h : (splitName cs).2 ≠ []) :
    ∃ front ext, front ≠ [] ∧ '.' ∉ ext ∧ cs = front ++ '.' :: ext ∧
      (splitName cs).2 = '.' :: ext := by
  have hpoints : cs.takeWhile (· == '.') ++ cs.dropWhile (· == '.') = cs :=
    List.takeWhile_append_dropWhile
  have hfirst : (cs.dropWhile (· == '.')).head? ≠ some '.' := fun hfirst => by
    simpa using Text.head?_dropWhile hfirst
  unfold splitName at h ⊢
  dsimp only at h ⊢
  rw [drop_length_takeWhile] at h ⊢
  cases hback : (cs.dropWhile (· == '.')).reverse.dropWhile (· != '.') with
  | nil =>
    rw [hback] at h
    exact absurd rfl h
  | cons c stem =>
    have hrest := eq_append_of_dropWhile_reverse hback
    have hstem : stem ≠ [] := by
      rintro rfl
      exact hfirst (by rw [hrest]; rfl)
    refine ⟨cs.takeWhile (· == '.') ++ stem.reverse, _, ?_, fun hmem => ?_, ?_, rfl⟩
    · simp [hstem]
    · simpa using List.mem_takeWhile_imp (List.mem_reverse.1 hmem)
    · rw [List.append_assoc, ← hrest, hpoints]

/-- The suffix of a name starts at its last point, unless that leads or ends the name. -/
theorem splitSuffix_append {front ext : List Char} (hfront : front ≠ []) (hext : ext ≠ [])
    (hpoint : '.' ∉ ext) :
    (splitSuffix (String.ofList (front ++ '.' :: ext))).2 = String.ofList ('.' :: ext) := by
  have hchars : (String.ofList (front ++ '.' :: ext)).toList.reverse =
      ext.reverse ++ '.' :: front.reverse := by simp
  have htake : (ext.reverse ++ '.' :: front.reverse).takeWhile (· != '.') = ext.reverse := by
    rw [List.takeWhile_append_of_pos (Text.bne_of_mem_reverse hpoint),
      List.takeWhile_cons_of_neg (by simp), List.append_nil]
  have hdrop : (ext.reverse ++ '.' :: front.reverse).drop (ext.reverse.length + 1) =
      front.reverse := by
    rw [← List.drop_drop, List.drop_left]
    rfl
  have hwhole : ¬ (ext.reverse.isEmpty || front.reverse.isEmpty ||
      ext.reverse.length == (String.ofList (front ++ '.' :: ext)).toList.length) = true := by
    simp [hfront, hext]
    omega
  simp only [splitSuffix, hchars, htake, hdrop]
  rw [if_neg hwhole]
  dsimp only
  rw [List.reverse_reverse]

theorem suffix_eq_extension {p : String} {name : String} (hname : IsName name)
    (hp : (spelledSegments p).getLast? = some name) (hne : extension name ≠ "")
    (hpoint : extension name ≠ ".") : suffix p = extension name := by
  rw [extension, baseName_of_no_slash hname.no_slash] at hne hpoint ⊢
  have hsome : (splitName name.toList).2 ≠ [] := fun hnil => hne (by rw [hnil])
  obtain ⟨front, ext, hfront, hext, hchars, hsplit⟩ := exists_of_splitName hsome
  rw [hsplit] at hpoint ⊢
  have hrest : ext ≠ [] := by
    rintro rfl
    exact hpoint rfl
  have hlast : Path.name p = String.ofList (front ++ '.' :: ext) := by
    rw [Path.name, hp, Option.getD_some, ← hchars, String.ofList_toList]
  rw [suffix, hlast, splitSuffix_append hfront hrest hext]

end Path

/-! ## Dialects -/

namespace Selection

theorem isSource_iff {extension : String} :
    isSource extension = true ↔ (Dialect.ofExtension? extension).isSome := by
  rw [isSource, List.contains_iff_mem]
  constructor
  · intro hmem
    simp only [Dialect.extensions, List.mem_cons, List.not_mem_nil, or_false] at hmem
    rcases hmem with rfl | rfl | rfl | rfl | rfl <;> rfl
  · intro hsome
    unfold Dialect.ofExtension? at hsome
    split at hsome
    · decide
    · decide
    · decide
    · decide
    · decide
    · cases hsome

end Selection

end SliceLint
