import SliceLint.Rule.Context
import SliceLint.Proofs.Text.Order

/-!
# Owners of slices

The index of owners is made from the files in order and keeps the first file of each slice. So the
owner of a slice is its least file (`ownsSlice_build_iff`), in whatever order the files of a run
are given, and a file that owns its slice still owns it in a run over fewer files
(`ownsSlice_mono`).
-/

namespace SliceLint

variable {sourceRoot : String} {c : Coordinate}

theorem lookup_enterOwner (owners : List (Coordinate × String)) (file : String)
    (hc : c.slice.isSome) :
    (enterOwner sourceRoot owners file).lookup c =
      (owners.lookup c).or
        (if Coordinate.ofPath? file sourceRoot = some c then some file else none) := by
  unfold enterOwner
  cases hfile : Coordinate.ofPath? file sourceRoot with
  | none => simp
  | some c' =>
    by_cases hcc : c' = c
    · subst hcc
      have hnone : c'.slice.isNone = false := by simpa [Option.isNone_eq_false_iff] using hc
      cases howner : owners.lookup c' with
      | none => simp [hnone, howner, List.lookup_append]
      | some owner => simp [howner]
    · have hne : (c == c') = false := beq_eq_false_iff_ne.2 (Ne.symm hcc)
      simp only [Option.some.injEq, hcc, if_false, Option.or_none]
      split
      · rfl
      · simp [List.lookup_append, List.lookup_cons, hne]

theorem lookup_ownersOf (files : List String) (hc : c.slice.isSome) :
    (ownersOf sourceRoot files).lookup c =
      files.find? fun file => Coordinate.ofPath? file sourceRoot = some c := by
  have hloop : ∀ owners, (files.foldl (enterOwner sourceRoot) owners).lookup c =
      (owners.lookup c).or
        (files.find? fun file => Coordinate.ofPath? file sourceRoot = some c) := by
    induction files with
    | nil => simp
    | cons file files ih =>
      intro owners
      rw [List.foldl_cons, ih, lookup_enterOwner owners file hc, List.find?_cons, Option.or_assoc]
      by_cases hfile : Coordinate.ofPath? file sourceRoot = some c <;> simp [hfile]
  simpa [ownersOf] using hloop []

theorem least_of_find?_sorted {files : List String} {p : String → Bool} {file : String}
    (h : (Text.sorted files).find? p = some file) :
    file ∈ files ∧ p file = true ∧ ∀ other ∈ files, p other = true → file ≤ other := by
  obtain ⟨hp, before, after, hsplit, hbefore⟩ := List.find?_eq_some_iff_append.1 h
  refine ⟨Text.mem_sorted.1 (List.mem_of_find?_eq_some h), hp, fun other hother hpother => ?_⟩
  have hpairs := Text.pairwise_sorted files
  rw [hsplit, List.pairwise_append, List.pairwise_cons] at hpairs
  have hplace := Text.mem_sorted.2 hother
  rw [hsplit, List.mem_append, List.mem_cons] at hplace
  rcases hplace with hin | rfl | hin
  · have hno := hbefore other hin
    rw [hpother] at hno
    cases hno
  · exact String.le_refl _
  · exact hpairs.2.1.1 other hin

theorem exists_least {files : List String} {p : String → Bool} {file : String}
    (hfile : file ∈ files) (hp : p file = true) :
    ∃ least ∈ files, p least = true ∧ ∀ other ∈ files, p other = true → least ≤ other := by
  cases hfind : (Text.sorted files).find? p with
  | none => exact absurd hp (List.find?_eq_none.1 hfind file (Text.mem_sorted.2 hfile))
  | some least => exact ⟨least, least_of_find?_sorted hfind⟩

section Build

variable {root : String} {aliases : Aliases} {hierarchy : Hierarchy} {files : List String}
  {view : FileView}

/-- **Ownership.** A file of a slice owns it when it is the least of the slice's files. -/
theorem ownsSlice_build_iff {file : String} (hfile : file ∈ files)
    (hcoordinate : Coordinate.ofPath? file sourceRoot = some c) (hc : c.slice.isSome) :
    (RunContext.build root sourceRoot aliases hierarchy files view).ownsSlice file c = true ↔
      ∀ other ∈ files, Coordinate.ofPath? other sourceRoot = some c → file ≤ other := by
  have howner : (RunContext.build root sourceRoot aliases hierarchy files view).owners.lookup c =
      (Text.sorted files).find? fun file => Coordinate.ofPath? file sourceRoot = some c :=
    lookup_ownersOf _ hc
  rw [RunContext.ownsSlice, howner]
  cases hfind : (Text.sorted files).find?
      fun file => Coordinate.ofPath? file sourceRoot = some c with
  | none =>
    have hnot := List.find?_eq_none.1 hfind file (Text.mem_sorted.2 hfile)
    exact absurd (decide_eq_true hcoordinate) hnot
  | some least =>
    obtain ⟨hmem, hleast, hle⟩ := least_of_find?_sorted hfind
    rw [Option.getD_some, beq_iff_eq]
    constructor
    · rintro rfl other hother hcother
      exact hle other hother (decide_eq_true hcother)
    · intro h
      exact String.le_antisymm (hle file hfile (decide_eq_true hcoordinate))
        (h least hmem (of_decide_eq_true hleast))

theorem ownsSlice_mono {fewer : List String} (hsub : fewer ⊆ files) {file : String}
    (hfile : file ∈ fewer) (hcoordinate : Coordinate.ofPath? file sourceRoot = some c)
    (hc : c.slice.isSome)
    (h : (RunContext.build root sourceRoot aliases hierarchy files view).ownsSlice file c = true) :
    (RunContext.build root sourceRoot aliases hierarchy fewer view).ownsSlice file c = true := by
  rw [ownsSlice_build_iff (hsub hfile) hcoordinate hc] at h
  rw [ownsSlice_build_iff hfile hcoordinate hc]
  exact fun other hother => h other (hsub hother)

end Build

end SliceLint
