import SliceLint.Proofs.Path.Extension
import SliceLint.Proofs.Path.Spelling

/-!
# Names at the end of paths

The name of a path is its last segment, if it has any (`isKept_name`). A path below a folder keeps
its name (`name_below`), a path whose name is replaced has the new one (`name_withName`), and a path
with an extension has a name (`spelledSegments_ne_nil`).

**Characters.** The name of a path has no characters but those of the path, and its stem and its
suffix none but those of the name. So what is made from them stays free of what they are free of.
-/

namespace SliceLint.Path

/-! ## Names -/

theorem name_mem_spelledSegments {p : String} (h : name p ≠ "") : name p ∈ spelledSegments p := by
  unfold name at h ⊢
  cases hlast : (spelledSegments p).getLast? with
  | none =>
    rw [hlast] at h
    exact absurd rfl h
  | some seg => exact List.mem_of_getLast? hlast

theorem isKept_name {p : String} (h : name p ≠ "") : IsKept (name p) :=
  isKept_of_mem_spelledSegments (name_mem_spelledSegments h)

theorem name_eq_empty_iff {p : String} : name p = "" ↔ spelledSegments p = [] := by
  unfold name
  constructor
  · intro h
    cases hlast : (spelledSegments p).getLast? with
    | none => exact List.getLast?_eq_none_iff.1 hlast
    | some seg =>
      rw [hlast] at h
      exact absurd h (isKept_of_mem_spelledSegments (List.mem_of_getLast? hlast)).ne_empty
  · intro h
    rw [h]
    rfl

/-- A path below a folder keeps its name; the path of the folder itself has that of the folder. -/
theorem name_below (base : String) {p : String}
    (h : isAbsolute p = true ∨ spelledSegments p ≠ []) : name (below base p) = name p := by
  have hkept : ∀ q, ∀ seg ∈ spelledSegments q, IsKept seg := fun q seg =>
    isKept_of_mem_spelledSegments
  rw [below]
  split
  · rw [spelled, name, spelledSegments_spell_root (isRoot_rootOf p) (hkept p), name]
  · rename_i hrelative
    have hne := h.resolve_left hrelative
    rw [name, spelledSegments_spell_root (isRoot_rootOf base)
      (List.forall_mem_append.2 ⟨hkept base, hkept p⟩), List.getLast?_append_of_ne_nil _ hne, name]

theorem name_withName {p seg : String} (h : IsKept seg) : name (withName p seg) = seg := by
  have hkept : ∀ s ∈ (spelledSegments p).dropLast ++ [seg], IsKept s := by
    refine List.forall_mem_append.2 ⟨fun s hs => ?_, fun s hs => ?_⟩
    · exact isKept_of_mem_spelledSegments (List.dropLast_subset _ hs)
    · rwa [List.mem_singleton.1 hs]
  rw [name, withName, spelledSegments_spell_root (isRoot_rootOf p) hkept]
  simp

/-- A path without a name is spelled as its root, or as a point. -/
theorem spelled_of_name_eq_empty {p : String} (h : name p = "") :
    spelled p = "." ∨ spelled p = "/" ∨ spelled p = "//" := by
  rw [spelled, name_eq_empty_iff.1 h]
  rcases isRoot_rootOf p with hroot | hroot | hroot <;> rw [hroot] <;> decide

/-! ## Extensions -/

theorem baseName_mem_pieces (p : String) : baseName p ∈ pieces p := by
  rw [baseName, pieces]
  refine List.mem_map_of_mem ?_
  cases hstem : p.toList.reverse.dropWhile (· != '/') with
  | nil =>
    have hslash : '/' ∉ p.toList := by
      intro hmem
      have hall := List.dropWhile_eq_nil_iff.1 hstem '/' (List.mem_reverse.2 hmem)
      exact absurd hall (by decide)
    have htake : p.toList.reverse.takeWhile (· != '/') = p.toList.reverse :=
      List.takeWhile_eq_self_iff.2 (List.dropWhile_eq_nil_iff.1 hstem)
    rw [Text.cut_of_notMem hslash, htake, List.reverse_reverse]
    exact List.mem_singleton_self _
  | cons c stem =>
    have hbase : '/' ∉ (p.toList.reverse.takeWhile (· != '/')).reverse := by
      intro hmem
      have hne := List.mem_takeWhile_imp (List.mem_reverse.1 hmem)
      exact absurd hne (by decide)
    have hcut := congrArg (Text.cut '/') (eq_append_of_dropWhile_reverse hstem)
    rw [Text.cut_append_cons_self, Text.cut_of_notMem hbase] at hcut
    rw [hcut]
    exact List.mem_append_right _ (List.mem_singleton_self _)

theorem spelledSegments_ne_nil {p : String} (h : extension p ≠ "") : spelledSegments p ≠ [] := by
  have hne : ∀ base : String, (splitName base.toList).2 = [] → baseName p ≠ base := by
    rintro _ hnone rfl
    rw [extension, hnone] at h
    exact h rfl
  have hmem : baseName p ∈ spelledSegments p := by
    rw [spelledSegments, segments, List.filter_filter, List.mem_filter]
    refine ⟨baseName_mem_pieces p, ?_⟩
    rw [Bool.and_eq_true, bne_iff_ne, bne_iff_ne]
    exact ⟨hne "." (by decide), hne "" (by decide)⟩
  exact List.ne_nil_of_mem hmem

/-! ## Characters -/

theorem splitSuffix_subset (name : String) :
    (splitSuffix name).1.toList ⊆ name.toList ∧ (splitSuffix name).2.toList ⊆ name.toList := by
  have hdrop : name.toList.reverse.drop
      ((name.toList.reverse.takeWhile (· != '.')).length + 1) =
        (name.toList.reverse.dropWhile (· != '.')).drop 1 := by
    rw [← List.drop_drop, drop_length_takeWhile]
  simp only [splitSuffix, hdrop]
  cases hstem : name.toList.reverse.dropWhile (· != '.') with
  | nil => simp
  | cons c stem =>
    have hname := eq_append_of_dropWhile_reverse hstem
    split
    · exact ⟨List.Subset.refl _, List.nil_subset _⟩
    · simp only [String.toList_ofList, List.drop_succ_cons, List.drop_zero]
      constructor
      · rw [hname]
        exact List.subset_append_left _ _
      · conv_rhs => rw [hname]
        exact List.subset_append_right _ _

theorem name_subset (p : String) : (name p).toList ⊆ p.toList := by
  by_cases hname : name p = ""
  · rw [hname]
    exact List.nil_subset _
  · have hmem := name_mem_spelledSegments hname
    have hpieces : name p ∈ pieces p := List.mem_of_mem_filter (List.mem_of_mem_filter hmem)
    obtain ⟨piece, hpiece, hpname⟩ := List.mem_map.1 hpieces
    rw [← hpname, String.toList_ofList]
    exact Text.subset_of_mem_cut hpiece

end SliceLint.Path
