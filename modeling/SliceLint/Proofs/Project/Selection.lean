import SliceLint.Project.Analysis
import SliceLint.Proofs.Disk.Place
import SliceLint.Proofs.Project.Discovery

/-!
# Selected files

The files of a run are its project files below the source root, or those that are given, in any
order and in any spelling. Either way each is selected once: their paths increase, and they lead to
different places of the disk (`Scope.files_distinct`).

A selected file is spelled with segments that all files of the run share and with names behind
them, and names behind a path stay behind its place (`Disk.place_below`). So it is the names that
tell both the files and their places apart.
-/

namespace SliceLint

/-! ## Files and their places -/

/-- Every file is spelled with the same segments in front and names behind them. -/
def SpelledBehind (front files : List String) : Prop :=
  ∀ file ∈ files, ∃ names, (∀ name ∈ names, Path.IsName name) ∧
    file = Path.spell "" (front ++ names)

/-- Names behind a path below a folder stay behind its place. -/
theorem Disk.place_below (d : Disk) (root : String) {front names : List String}
    (hfront : ∀ seg ∈ front, Path.IsKept seg) (hnames : ∀ name ∈ names, Path.IsName name) :
    d.place (Path.below root (Path.spell "" (front ++ names))) =
      Path.normalSegments true
        (d.front (Path.rootOf root) ++ (Path.spelledSegments root ++ front)) ++ names := by
  have hkept := Path.isKept_append_names hfront hnames
  have hbelow : ∀ seg ∈ Path.spelledSegments root ++ (front ++ names), Path.IsKept seg :=
    List.forall_mem_append.2 ⟨fun _ => Path.isKept_of_mem_spelledSegments, hkept⟩
  rw [Path.below_spell root hkept, d.place_spell (Path.isRoot_rootOf root) hbelow,
    ← List.append_assoc, ← List.append_assoc, Path.normalSegments_append_names hnames,
    List.append_assoc]

/-- Files that share the segments in front of their names differ in these, and lead to different
places. -/
theorem SpelledBehind.nodup_places {front files : List String}
    (hfront : ∀ seg ∈ front, Path.IsKept seg) (h : SpelledBehind front files)
    (hfiles : files.Nodup) (d : Disk) (root : String) :
    (files.map fun file => d.place (Path.below root file)).Nodup := by
  refine List.Nodup.map_on (fun file hfile file' hfile' heq => ?_) hfiles
  obtain ⟨names, hnames, rfl⟩ := h file hfile
  obtain ⟨names', hnames', rfl⟩ := h file' hfile'
  rw [d.place_below root hfront hnames, d.place_below root hfront hnames',
    List.append_cancel_left_eq] at heq
  rw [heq]

namespace Selection

variable {d : Disk} {root : String} {c : Config} {files paths : List String}

/-! ## Files of the project -/

/-- Names behind the source root are told from the path of their file. -/
theorem names_eq_of_spell_eq {sourceRoot : String} {names names' : List String}
    (hnames : ∀ name ∈ names, Path.IsName name) (hnames' : ∀ name ∈ names', Path.IsName name)
    (h : Path.spell "" (Path.spelledSegments sourceRoot ++ names) =
      Path.spell "" (Path.spelledSegments sourceRoot ++ names')) : names = names' := by
  have hkept : ∀ {names}, (∀ name ∈ names, Path.IsName name) →
      ∀ seg ∈ Path.spelledSegments sourceRoot ++ names, Path.IsKept seg := fun hnames =>
    Path.isKept_append_names (fun _ => Path.isKept_of_mem_spelledSegments) hnames
  have hsegs := congrArg Path.spelledSegments h
  rwa [Path.spelledSegments_spell_root (Or.inl rfl) (hkept hnames),
    Path.spelledSegments_spell_root (Or.inl rfl) (hkept hnames'),
    List.append_cancel_left_eq] at hsegs

theorem nodup_sources {e : Entry} (hnamed : e.WellNamed) (hdistinct : e.HasDistinctNames)
    (d : Disk) (root sourceRoot : String) : (sources d root sourceRoot e).Nodup := by
  refine List.Nodup.map_on (fun names hmem names' hmem' heq => ?_)
    (hdistinct.nodup_walk.filter _)
  exact names_eq_of_spell_eq (hnamed.isName_of_mem_walk (List.mem_filter.1 hmem).1)
    (hnamed.isName_of_mem_walk (List.mem_filter.1 hmem').1) heq

theorem spelledBehind_discover (hnamed : d.root.WellNamed)
    (h : (discover d root c).value = .ok files) :
    SpelledBehind (Path.spelledSegments c.sourceRoot) files := by
  intro file hfile
  obtain ⟨names, -, hnames, rfl⟩ := exists_names_of_mem_discover hnamed h hfile
  exact ⟨names, hnames, rfl⟩

theorem pairwise_discover (hnamed : d.root.WellNamed) (hdistinct : d.root.HasDistinctNames)
    (h : (discover d root c).value = .ok files) : files.Pairwise (· < ·) := by
  obtain ⟨e, hentry, rfl⟩ := exists_entry_of_discover h
  have hsources := nodup_sources (Disk.wellNamed_entry hnamed hentry)
    (Disk.entry_hereditary Entry.hereditary_hasDistinctNames hdistinct hentry) d root c.sourceRoot
  exact Text.pairwise_lt_sorted (hsources.filter _)

/-! ## Given files -/

/-- What is left of an absolute path behind the project folder are names. -/
theorem exists_names_of_within? {path file : String} (hpath : Path.isAbsolute path = true)
    (h : within? root path = some file) :
    ∃ names, (∀ name ∈ names, Path.IsName name) ∧ file = Path.spell "" names := by
  simp only [within?, Path.segments_normalize_absolute hpath] at h
  split at h
  · cases h
    refine ⟨_, fun name hname => ?_, rfl⟩
    exact Path.isName_of_mem_normalSegments (fun _ => Path.notMem_of_mem_pieces) name
      (List.mem_of_mem_drop hname)
  · cases h

theorem spelledBehind_pick (hroot : Path.isAbsolute root = true) (paths : List String) :
    SpelledBehind [] (pick root paths).value := by
  intro file hfile
  obtain ⟨placed, hmem, hplaced⟩ :=
    List.mem_filterMap.1 (Text.mem_distinct.1 (Text.mem_sorted.1 hfile))
  obtain ⟨path, -, rfl⟩ := List.mem_map.1 hmem
  simp only [place] at hplaced
  split at hplaced
  · cases hplaced
  · rename_i rel hwithin
    split at hplaced
    · cases hplaced
      exact exists_names_of_within? (Path.isAbsolute_below hroot path) hwithin
    · cases hplaced

theorem pairwise_pick (root : String) (paths : List String) :
    (pick root paths).value.Pairwise (· < ·) :=
  Text.pairwise_lt_sorted (Text.nodup_distinct _)

end Selection

/-- **Selection.** On a disk whose folders have distinct names, the files of a run are selected
once: their paths increase, and they lead to different places. -/
theorem Scope.files_distinct {d : Disk} {root : String} {c : Config} {scope : Scope}
    {files : List String} (hroot : Path.isAbsolute root = true) (hnamed : d.root.WellNamed)
    (hdistinct : d.root.HasDistinctNames) (h : (scope.files d root c).value = .ok files) :
    files.Pairwise (· < ·) ∧ (files.map fun file => d.place (Path.below root file)).Nodup := by
  cases scope with
  | project =>
    have hfiles := Selection.pairwise_discover hnamed hdistinct h
    exact ⟨hfiles, (Selection.spelledBehind_discover hnamed h).nodup_places
      (fun _ => Path.isKept_of_mem_spelledSegments) (Text.nodup_of_pairwise_lt hfiles) d root⟩
  | given paths =>
    cases h
    have hfiles := Selection.pairwise_pick root paths
    exact ⟨hfiles, (Selection.spelledBehind_pick hroot paths).nodup_places
      (fun _ hseg => absurd hseg List.not_mem_nil) (Text.nodup_of_pairwise_lt hfiles) d root⟩

end SliceLint
