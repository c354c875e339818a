import SliceLint.Proofs.Project.Run
import SliceLint.Proofs.Project.Selection
import SliceLint.Proofs.Report.Numbering

/-!
# Numbers over a run

**One file** (`Engine.ids_found`). The violations of a file are numbered from one. Where the file
has a tree the numbers are those of the findings; where it has none, the violation that tells so
takes the first number and the findings go on from the second.

**All files** (`Results.NumberedBy`). The violations of a run come file by file, in the order of the
paths. An identifier tells its file and its number, so that none is given twice.

Main result: `analyze_numbered`, about the files that a run selects on a disk.
-/

namespace SliceLint

/-! ## One file -/

namespace Engine

variable {e : Engine} {relPath : String} {lines : List String}

theorem id_of_violation {n : Nat} {x : Rule × Finding} {v : Violation}
    (h : e.violation relPath lines n x = .ok v) : v.id = Violation.idOf relPath n := by
  simp only [violation] at h
  cases hwording : e.wording x.1 x.2 with
  | error f =>
    rw [hwording] at h
    cases h
  | ok shown =>
    rw [hwording] at h
    cases h
    rfl

theorem ids_violations {n : Nat} {xs : List (Rule × Finding)} {vs : List Violation}
    (h : e.violations relPath lines n xs = .ok vs) :
    vs.map Violation.id = (List.range' n vs.length).map (Violation.idOf relPath) := by
  induction xs generalizing n vs with
  | nil =>
    cases h
    rfl
  | cons x xs ih =>
    obtain ⟨v, hv, h⟩ := bind_eq_ok h
    obtain ⟨rest, hrest, h⟩ := bind_eq_ok h
    cases h
    rw [List.map_cons, ih hrest, id_of_violation hv, List.length_cons, List.range'_succ,
      List.map_cons]

/-- The numbers of a file run from one, whether it has a tree or not. -/
theorem ids_report [SourceReader] {path : String} {run : RunContext} {text : Except Fault String}
    {r : FileReport} (h : e.report path relPath run text = .ok r) :
    r.violations.map Violation.id =
      (List.range' 1 r.violations.length).map (Violation.idOf relPath) := by
  rcases report_cases path relPath text with
    ⟨-, text', message, line, column, shown, note, hreport⟩ | ⟨text', d, tree, -, -, hreport⟩
  · rw [hreport, reportUnparsed] at h
    generalize hvs : e.violations _ _ _ _ = vs at h
    cases vs with
    | error f => cases h
    | ok vs =>
      cases h
      have hfirst : (parseViolation relPath message line column shown).id =
          Violation.idOf relPath 1 := rfl
      rw [List.map_cons, ids_violations hvs, hfirst, List.length_cons, List.range'_succ,
        List.map_cons]
  · rw [hreport, reportParsed] at h
    generalize hvs : e.violations _ _ _ _ = vs at h
    cases vs with
    | error f => cases h
    | ok vs =>
      cases h
      exact ids_violations hvs

theorem ids_found [SourceReader] (e : Engine) (read : String → Except Fault String)
    (run : RunContext) (file : String) :
    (e.found read run file).map Violation.id =
      (List.range' 1 (e.found read run file).length).map (Violation.idOf file) := by
  simp only [found]
  split
  · rename_i r hreport
    exact ids_report hreport
  · rfl

end Engine

/-! ## All files -/

/-- The violations come file by file, with the numbers from one in each file. The files increase,
and no identifier is given twice. -/
structure Results.NumberedBy (r : Results) (files : List String) : Prop where
  increasing : files.Pairwise (· < ·)
  grouped : r.violations.map (fun v => (v.file, v.id)) = files.flatMap fun file =>
    (List.range' 1 (r.violations.countP fun v => v.file == file)).map fun n =>
      (file, Violation.idOf file n)
  distinct : (r.violations.map Violation.id).Nodup

theorem nodup_ids {files : List String} (hfiles : files.Nodup) (count : String → Nat) :
    (files.flatMap fun file =>
      (List.range' 1 (count file)).map fun n => Violation.idOf file n).Nodup := by
  refine List.nodup_flatMap.2 ⟨fun file _ => ?_, hfiles.imp fun {file file'} hne id hid hid' => ?_⟩
  · exact (List.nodup_range' 1).map fun _ _ heq => (Violation.idOf_inj.1 heq).2
  · obtain ⟨n, -, rfl⟩ := List.mem_map.1 hid
    obtain ⟨n', -, heq⟩ := List.mem_map.1 hid'
    exact hne (Violation.idOf_inj.1 heq).1.symm

theorem numberedBy_of_found [SourceReader] {e : Engine} (hrules : ∀ r ∈ e.rules, r.Declares)
    {read : String → Except Fault String} {run : RunContext} {files : List String}
    (hfiles : files.Pairwise (· < ·)) {r : Results}
    (hr : r.violations = files.flatMap (e.found read run)) : r.NumberedBy files := by
  have hnodup := Text.nodup_of_pairwise_lt hfiles
  have hgrouped : r.violations.map (fun v => (v.file, v.id)) = files.flatMap fun file =>
      (List.range' 1 (r.violations.countP fun v => v.file == file)).map fun n =>
        (file, Violation.idOf file n) := by
    rw [hr, List.map_flatMap]
    refine List.flatMap_congr fun file hfile => ?_
    rw [List.countP_eq_length_filter, Engine.filter_found hrules hnodup hfile]
    calc (e.found read run file).map (fun v => (v.file, v.id))
        = ((e.found read run file).map Violation.id).map fun id => (file, id) := by
          rw [List.map_map]
          refine List.map_congr_left fun v hv => ?_
          rw [Function.comp_apply, Engine.file_of_mem_found hrules hv]
      _ = (List.range' 1 (e.found read run file).length).map fun n =>
            (file, Violation.idOf file n) := by
          rw [Engine.ids_found, List.map_map]
          rfl
  have hids : r.violations.map Violation.id = files.flatMap fun file =>
      (List.range' 1 (r.violations.countP fun v => v.file == file)).map fun n =>
        Violation.idOf file n := by
    have hsnd := congrArg (List.map Prod.snd) hgrouped
    simp only [List.map_map, List.map_flatMap] at hsnd
    exact hsnd
  exact ⟨hfiles, hgrouped, hids ▸ nodup_ids hnodup _⟩

theorem Scope.increasing_files {d : Disk} {root : String} {c : Config} {scope : Scope}
    {files : List String} (hnamed : d.root.WellNamed) (hdistinct : d.root.HasDistinctNames)
    (h : (scope.files d root c).value = .ok files) : files.Pairwise (· < ·) := by
  cases scope with
  | project => exact Selection.pairwise_discover hnamed hdistinct h
  | given paths =>
    cases h
    exact Selection.pairwise_pick root paths

/-- The violations of a run over a project are those of its files, in the order of the files. -/
theorem exists_found_of_analyze [SourceReader] {d : Disk} {root : String} {c : Config}
    {scope : Scope} {clock : Clock} {results : Results} (hnamed : d.root.WellNamed)
    (hdistinct : d.root.HasDistinctNames) (h : (analyze d root c scope clock).value = .ok results) :
    ∃ e files, c.engine = .ok e ∧ (scope.files d root c).value = .ok files ∧
      files.Pairwise (· < ·) ∧
      results = .of results.violations files.length clock.milliseconds clock.now ∧
      results.violations =
        files.flatMap (e.found d.readText (c.runContext root files d.view)) := by
  obtain ⟨e, files, he, hfiles, hanalyzed⟩ := exists_of_analyze h
  have hincreasing := Scope.increasing_files hnamed hdistinct hfiles
  obtain ⟨results', hresults, hviolations⟩ :=
    analyzeFiles_eq (Config.independent_engine he).declares d.readText d.view root c files clock
  cases hresults.symm.trans hanalyzed
  have hsorted : Text.sorted files = files :=
    Text.sorted_eq_of_perm (List.Perm.refl files)
      (hincreasing.imp fun hlt => String.not_lt.1 (String.lt_asymm hlt))
  rw [hsorted] at hviolations
  exact ⟨e, files, he, hfiles, hincreasing, results_of_analyzeFiles hanalyzed, hviolations⟩

/-- **Numbers.** A run over a project goes once through each of the selected files, which lead to
different places of the disk. Its violations come file by file in the order of the paths, those of a
file are numbered from one, and no identifier is given twice. -/
theorem analyze_numbered [SourceReader] {d : Disk} {root : String} {c : Config} {scope : Scope}
    {clock : Clock} {results : Results} (hroot : Path.isAbsolute root = true)
    (hnamed : d.root.WellNamed) (hdistinct : d.root.HasDistinctNames)
    (h : (analyze d root c scope clock).value = .ok results) :
    ∃ e files, c.engine = .ok e ∧ (scope.files d root c).value = .ok files ∧
      results.filesScanned = files.length ∧
      (files.map fun file => d.place (Path.below root file)).Nodup ∧
      results.violations =
        files.flatMap (e.found d.readText (c.runContext root files d.view)) ∧
      results.NumberedBy files := by
  obtain ⟨e, files, he, hfiles, hanalyzed⟩ := exists_of_analyze h
  obtain ⟨hincreasing, hplaces⟩ := Scope.files_distinct hroot hnamed hdistinct hfiles
  have hrules := (Config.independent_engine he).declares
  obtain ⟨results', hresults, hviolations⟩ :=
    analyzeFiles_eq hrules d.readText d.view root c files clock
  cases hresults.symm.trans hanalyzed
  have hsorted : Text.sorted files = files :=
    Text.sorted_eq_of_perm (List.Perm.refl files)
      (hincreasing.imp fun hlt => String.not_lt.1 (String.lt_asymm hlt))
  rw [hsorted] at hviolations
  exact ⟨e, files, he, hfiles, congrArg Results.filesScanned (results_of_analyzeFiles hanalyzed),
    hplaces, hviolations, numberedBy_of_found hrules hincreasing hviolations⟩

/-- One file that is given three times, each time spelled in another way, is numbered once. It owns
its slice, which lacks the two files that it is asked for. -/
theorem analyze_numbered_shop :
    ∃ results : Results,
      (analyze Shop.disk "/" (Shop.asking ["api.ts", "hooks.ts"])
        (.given ["app/features/cart/list.ts", "./app//features/cart/list.ts",
          "/app/features/cart/../cart/list.ts"]) ⟨default, default⟩).value = .ok results ∧
      results.violations.map Violation.id =
        ["app/features/cart/list.ts#1", "app/features/cart/list.ts#2"] ∧
      results.filesScanned = 1 ∧ results.NumberedBy ["app/features/cart/list.ts"] := by
  have hfiles : (Selection.pick "/" ["app/features/cart/list.ts", "./app//features/cart/list.ts",
      "/app/features/cart/../cart/list.ts"]).value = ["app/features/cart/list.ts"] := by
    decide +kernel
  obtain ⟨results, hanalyzed, hids⟩ := exists_of_map_toOption
    (show (analyze Shop.disk "/" (Shop.asking ["api.ts", "hooks.ts"])
      (.given ["app/features/cart/list.ts", "./app//features/cart/list.ts",
        "/app/features/cart/../cart/list.ts"]) ⟨default, default⟩).value.toOption.map
          (fun r => r.violations.map Violation.id) =
      some ["app/features/cart/list.ts#1", "app/features/cart/list.ts#2"] by decide +kernel)
  obtain ⟨e', files, -, hscope, hscanned, -, -, hnumbered⟩ :=
    analyze_numbered (by decide +kernel) Shop.wellNamed_disk Shop.hasDistinctNames_disk hanalyzed
  cases hscope.symm.trans (congrArg Except.ok hfiles)
  exact ⟨results, hanalyzed, hids, hscanned, hnumbered⟩

end SliceLint
