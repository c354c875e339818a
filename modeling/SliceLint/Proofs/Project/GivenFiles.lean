import SliceLint.Proofs.Path.Containment
import SliceLint.Proofs.Project.Selection

/-!
# Files that are given one by one

**Given files** (`Selection.IsGiven`). A path gives a file of a project when the place that it names
lies behind that of the project folder, and its suffix is that of a source file. The file is known by
the names that lead from the one place to the other. Places are lists of names, so that a folder
beside the project whose name goes on from that of the project is not behind it.

**Canonical files** (`pick_canonical`). The files that are picked are those that some path gives, in
the order of their paths and each once. Paths in another order, in more copies or in another spelling
(`Selection.SpelledAlike`) give the same files, and a path that names no place in the project gives
none and is noted.
-/

namespace SliceLint

/-- The place that a path names on a disk. A path with a null character names none. -/
def Disk.named? (d : Disk) (path : String) : Option (List String) :=
  if Path.hasNull path then none else some (d.place path)

namespace Selection

variable {d : Disk} {root path file : String} {paths : List String}

/-- A path, taken from the project folder, gives a file of the project. -/
structure IsGiven (d : Disk) (root path file : String) : Prop where
  lies : ∃ names, d.named? (Path.below root path) = some (d.place root ++ names) ∧
    file = Path.spell "" names
  source : isSource (Path.suffix (Path.below root path)) = true

/-- A path, taken from the project folder, names no place in the project. -/
def IsOutside (d : Disk) (root path : String) : Prop :=
  ∀ names, d.named? (Path.below root path) ≠ some (d.place root ++ names)

/-- Two paths, taken from the project folder, end in one name and name one place. -/
structure SpelledAlike (d : Disk) (root path path' : String) : Prop where
  name_eq : Path.name (Path.below root path) = Path.name (Path.below root path')
  place_eq : d.named? (Path.below root path) = d.named? (Path.below root path')

/-- What is noted of a path outside of the project. -/
def outsideNote (path : String) : LogEntry :=
  ⟨.warning, LogEntry.runChannel, "Skipping " ++ Path.spelled path ++ ": outside project root"⟩

/-! ## One path -/

theorem within?_eq_some_iff (hroot : Path.isAbsolute root = true)
    (hpath : Path.isAbsolute path = true) :
    within? root path = some file ↔
      ∃ names, d.named? path = some (d.place root ++ names) ∧ file = Path.spell "" names := by
  simp only [within?, Path.segments_normalize_absolute hroot,
    Path.segments_normalize_absolute hpath, ← d.place_absolute hroot, ← d.place_absolute hpath,
    hroot, hpath, Disk.named?]
  cases hnull : Path.hasNull path with
  | true => simp
  | false =>
    simp only [Bool.not_false, beq_self_eq_true, Bool.true_and, List.isPrefixOf_iff_prefix,
      Bool.false_eq_true, if_false, Option.some.injEq]
    constructor
    · intro h
      split at h
      · rename_i hprefix
        obtain ⟨names, hnames⟩ := hprefix
        rw [← hnames, List.drop_left, Option.some.injEq] at h
        exact ⟨names, hnames.symm, h.symm⟩
      · cases h
    · rintro ⟨names, hnames, rfl⟩
      rw [hnames, if_pos (List.prefix_append _ _), List.drop_left]

theorem place_eq_ok_iff (hroot : Path.isAbsolute root = true) :
    place root path = .ok file ↔ IsGiven d root path file := by
  have hpath := Path.isAbsolute_below hroot path
  unfold place
  constructor
  · intro h
    dsimp only at h
    split at h
    · cases h
    · rename_i rel hrel
      split at h
      · rename_i hsource
        cases h
        exact ⟨(within?_eq_some_iff hroot hpath).1 hrel, hsource⟩
      · cases h
  · rintro ⟨hlies, hsource⟩
    dsimp only
    rw [(within?_eq_some_iff hroot hpath).2 hlies]
    dsimp only
    rw [if_pos hsource]

theorem place_of_isOutside (hroot : Path.isAbsolute root = true) (h : IsOutside d root path) :
    place root path = .error (outsideNote path) := by
  have hnone : within? root (Path.below root path) = none := by
    refine Option.eq_none_iff_forall_ne_some.2 fun rel hrel => ?_
    obtain ⟨names, hnames, -⟩ :=
      (within?_eq_some_iff (d := d) hroot (Path.isAbsolute_below hroot path)).1 hrel
    exact h names hnames
  simp only [place, hnone, outsideNote]

theorem IsOutside.not_isGiven (h : IsOutside d root path) : ¬ IsGiven d root path file := by
  rintro ⟨⟨names, hnames, -⟩, -⟩
  exact h names hnames

theorem SpelledAlike.symm {path' : String} (h : SpelledAlike d root path path') :
    SpelledAlike d root path' path :=
  ⟨h.name_eq.symm, h.place_eq.symm⟩

theorem SpelledAlike.isGiven {path' : String} (h : SpelledAlike d root path path')
    (hgiven : IsGiven d root path file) : IsGiven d root path' file := by
  obtain ⟨⟨names, hnames, hfile⟩, hsource⟩ := hgiven
  have hsuffix : Path.suffix (Path.below root path) = Path.suffix (Path.below root path') := by
    unfold Path.suffix
    rw [h.name_eq]
  rw [hsuffix] at hsource
  exact ⟨⟨names, h.place_eq.symm.trans hnames, hfile⟩, hsource⟩

theorem IsGiven.isWithin (hroot : Path.isAbsolute root = true) (h : IsGiven d root path file) :
    Path.IsWithin file ∧ d.named? (Path.below root path) = some (d.place (Path.below root file)) := by
  obtain ⟨⟨names, hplace, rfl⟩, -⟩ := h
  have hname : ∀ name ∈ names, Path.IsName name := by
    intro name hname
    have hnamed : d.place (Path.below root path) = d.place root ++ names := by
      unfold Disk.named? at hplace
      split at hplace
      · cases hplace
      · exact Option.some.inj hplace
    rw [d.place_absolute (Path.isAbsolute_below hroot path)] at hnamed
    exact Path.isName_of_mem_normalSegments (fun _ => Path.notMem_of_mem_pieces) name
      (hnamed ▸ List.mem_append_right _ hname)
  refine ⟨⟨names, hname, rfl⟩, ?_⟩
  rw [hplace]
  have hfront : ∀ seg ∈ ([] : List String), Path.IsKept seg := nofun
  have hbelow := d.place_below root hfront hname
  rw [List.nil_append, List.append_nil] at hbelow
  rw [hbelow, ← d.place_eq]

/-! ## All paths -/

theorem mem_pick_iff (hroot : Path.isAbsolute root = true) :
    file ∈ (pick root paths).value ↔ ∃ path ∈ paths, IsGiven d root path file := by
  have htoOption : ∀ placed : Except LogEntry String,
      placed.toOption = some file ↔ placed = .ok file := by
    intro placed
    cases placed <;> simp [Except.toOption]
  simp only [pick, Text.mem_sorted, Text.mem_distinct, List.filterMap_map, List.mem_filterMap,
    Function.comp_apply, htoOption, place_eq_ok_iff (d := d) hroot]

theorem mem_log_pick {note : LogEntry} (hpath : path ∈ paths) (h : place root path = .error note) :
    note ∈ (pick root paths).log :=
  List.mem_filterMap.2 ⟨place root path, List.mem_map_of_mem hpath, by rw [h]⟩

theorem pick_congr {paths' : List String} (hroot : Path.isAbsolute root = true)
    (h : ∀ file, (∃ path ∈ paths, IsGiven d root path file) ↔
      ∃ path ∈ paths', IsGiven d root path file) :
    (pick root paths).value = (pick root paths').value := by
  refine Text.eq_of_pairwise_lt (pairwise_pick root paths) (pairwise_pick root paths') fun file => ?_
  rw [mem_pick_iff hroot, mem_pick_iff hroot]
  exact h file

end Selection

/-- **Given files.** Let the project folder be named by an absolute path. The files of a run over
paths are in strictly increasing order, they are the files of the project that some path gives, and
each is a normal path of the project that names the place named by its path. Paths that are spelled
alike one by one, in any order and in any number of copies, give the same files. A path outside of
the project is noted, and changes nothing. -/
theorem pick_canonical {d : Disk} {root : String} {c : Config}
    (hroot : Path.isAbsolute root = true) (paths : List String) :
    ∃ files, ((Scope.given paths).files d root c).value = .ok files ∧ files.Pairwise (· < ·) ∧
      (∀ file, file ∈ files ↔ ∃ path ∈ paths, Selection.IsGiven d root path file) ∧
      (∀ path file, Selection.IsGiven d root path file → Path.IsWithin file ∧
        d.named? (Path.below root path) = some (d.place (Path.below root file))) ∧
      (∀ paths', (∀ path ∈ paths, ∃ path' ∈ paths', Selection.SpelledAlike d root path path') →
        (∀ path' ∈ paths', ∃ path ∈ paths, Selection.SpelledAlike d root path path') →
        ((Scope.given paths').files d root c).value = .ok files) ∧
      ∀ path, Selection.IsOutside d root path →
        ((Scope.given (path :: paths)).files d root c).value = .ok files ∧
          (path ∈ paths →
            Selection.outsideNote path ∈ ((Scope.given paths).files d root c).log) := by
  refine ⟨_, rfl, Selection.pairwise_pick root paths, fun file => Selection.mem_pick_iff hroot,
    fun path file => Selection.IsGiven.isWithin hroot, fun paths' hto hfrom => ?_,
    fun path houtside => ⟨?_, fun hpath => ?_⟩⟩
  · refine congrArg Except.ok (Selection.pick_congr (d := d) hroot fun file => ⟨?_, ?_⟩)
    · rintro ⟨path', hpath', hgiven⟩
      obtain ⟨path, hpath, halike⟩ := hfrom path' hpath'
      exact ⟨path, hpath, halike.symm.isGiven hgiven⟩
    · rintro ⟨path, hpath, hgiven⟩
      obtain ⟨path', hpath', halike⟩ := hto path hpath
      exact ⟨path', hpath', halike.isGiven hgiven⟩
  · refine congrArg Except.ok (Selection.pick_congr (d := d) hroot fun file => ?_)
    simp only [List.exists_mem_cons_iff, houtside.not_isGiven, false_or]
  · exact Selection.mem_log_pick hpath (Selection.place_of_isOutside hroot houtside)

/-- Two spellings of one file give it once, as its own path does. A file in a folder beside the
project changes nothing, though the name of that folder goes on from that of the project. -/
theorem pick_canonical_spellings :
    ((Scope.given ["./app//list.ts", "/project/app/../app/list.ts"]).files Shop.disk "/project"
        .standard).value = .ok ["app/list.ts"] ∧
      ((Scope.given ["app/list.ts"]).files Shop.disk "/project" .standard).value =
        .ok ["app/list.ts"] ∧
      ((Scope.given ["../projects/list.ts", "./app//list.ts", "/project/app/../app/list.ts"]).files
        Shop.disk "/project" .standard).value = .ok ["app/list.ts"] := by
  have hpicked : (Selection.pick "/project"
      ["./app//list.ts", "/project/app/../app/list.ts"]).value = ["app/list.ts"] := by
    decide +kernel
  have halike : ∀ path ∈ ["./app//list.ts", "/project/app/../app/list.ts"],
      Selection.SpelledAlike Shop.disk "/project" path "app/list.ts" := by
    simp only [List.forall_mem_cons, List.not_mem_nil, false_implies, implies_true, and_true]
    exact ⟨⟨by decide +kernel, by decide +kernel⟩, by decide +kernel, by decide +kernel⟩
  have houtside : Selection.IsOutside Shop.disk "/project" "../projects/list.ts" := by
    have hbeside : Shop.disk.named? (Path.below "/project" "../projects/list.ts") =
        some ["projects", "list.ts"] := by decide +kernel
    have hproject : Shop.disk.place "/project" = ["project"] := by decide +kernel
    intro names
    rw [hbeside, hproject]
    simp
  have hroot : Path.isAbsolute "/project" = true := by decide +kernel
  obtain ⟨files, hfiles, -, -, -, hspelled, hskipped⟩ := pick_canonical (d := Shop.disk)
    (c := .standard) hroot ["./app//list.ts", "/project/app/../app/list.ts"]
  have heq : files = ["app/list.ts"] := (Except.ok.inj hfiles).symm.trans hpicked
  rw [heq] at hfiles hspelled hskipped
  refine ⟨hfiles, hspelled ["app/list.ts"] (fun path hpath => ?_) (fun path' hpath' => ?_),
    (hskipped _ houtside).1⟩
  · exact ⟨_, List.mem_singleton_self _, halike path hpath⟩
  · rw [List.mem_singleton.1 hpath']
    exact ⟨_, List.mem_cons_self, halike _ List.mem_cons_self⟩

end SliceLint
