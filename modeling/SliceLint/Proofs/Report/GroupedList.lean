import SliceLint.Proofs.Project.Completion
import SliceLint.Proofs.Project.Numbering
import SliceLint.Report.Listing

/-!
# The grouped list

The violations of a run are listed in one pass that remembers the current file and names a file
where it begins. What such a list should be is said here without a pass (`Results.listing`): for each
file one block, which is its path and then each violation with what is suggested, an empty entry
between blocks, and the totals.

**Blocks** (`groupedEntries_flatMap`). The pass gives these blocks when the violations come file by
file. The induction is on the files that are still to come; what carries it is that the current file
is none of them.

**Places** (`ListEntry.located`). The list is read from the top, and each violation is found below a
path. In a list of blocks these are all violations in their order, each below its own file.

Main result: `analyze_grouped`, about the results of a run over a project.
-/

namespace SliceLint

/-- The violations of a file. -/
def Violation.ofFile (vs : List Violation) (path : String) : List Violation :=
  vs.filter fun v => v.file == path

/-- A severity with its mark; all words take as much room as the longest of them. -/
def Severity.label : Severity → String
  | error => "✗ error  "
  | warning => "! warning"
  | other word => "! " ++ word ++ String.ofList (List.replicate (7 - word.length) ' ')

/-- What stands in an entry of the grouped list. -/
inductive ListEntry where
  | file (path : String)
  | violation (v : Violation)
  | suggestion (v : Violation)
  | separator
  | clean
  | totals (total errors warnings : Nat)

namespace ListEntry

/-- The text of an entry in a list about so many files, from a run that took so long. -/
def text (scanned : Int) (time : String) : ListEntry → String
  | file path => path
  | violation v =>
    "  " ++ toString v.line ++ ":" ++ toString v.column ++ "  " ++
      v.severity.label ++ "  " ++ v.message ++ "  " ++ v.rule
  | suggestion v => "      → " ++ v.suggestion
  | separator => ""
  | clean => "✓ No violations found (" ++ toString scanned ++ " files, " ++ time ++ ")"
  | totals total errors warnings =>
    toString total ++ (if total == 1 then " problem (" else " problems (") ++ toString errors ++
      " errors, " ++ toString warnings ++ " warnings) in " ++ toString scanned ++ " files, " ++ time

/-- The entry of a violation, and the one of its suggestion if it has any. -/
def ofViolation (v : Violation) : List ListEntry :=
  violation v :: if v.suggestion = "" then [] else [suggestion v]

/-- The violations of a file below its path. -/
def block (vs : List Violation) (path : String) : List ListEntry :=
  file path :: (Violation.ofFile vs path).flatMap ofViolation

/-- The violations of a list, each with the path that it stands below. -/
def located (above : Option String) : List ListEntry → List (Option String × Violation)
  | [] => []
  | file path :: rest => located (some path) rest
  | violation v :: rest => (above, v) :: located above rest
  | _ :: rest => located above rest

end ListEntry

/-- The list of the violations in blocks for these files, with the totals below. -/
def Results.listing (r : Results) (files : List String) : List ListEntry :=
  if r.violations.isEmpty then [.clean]
  else [ListEntry.separator].intercalate (files.map (ListEntry.block r.violations)) ++
    [.separator, .totals r.summary.total r.summary.errors r.summary.warnings]

/-- The grouped list of the results joins the texts of blocks for these files, which are those with
violations. -/
structure Results.GroupedBy (r : Results) (files : List String) : Prop where
  increasing : files.Pairwise (· < ·)
  mem_iff : ∀ file, file ∈ files ↔ ∃ v ∈ r.violations, v.file = file
  entries_eq : r.entries =
    (r.listing files).map (ListEntry.text r.filesScanned r.summary.executionTime)
  rich_eq : r.rich = "\n".intercalate
    ((r.listing files).map (ListEntry.text r.filesScanned r.summary.executionTime))
  located_eq : ListEntry.located none (r.listing files) =
    r.violations.map fun v => (some v.file, v)
  total_eq : r.summary.total = (ListEntry.located none (r.listing files)).length
  errors_eq : r.summary.errors =
    (ListEntry.located none (r.listing files)).countP fun (_, v) => v.severity == .error
  warnings_eq : r.summary.warnings =
    (ListEntry.located none (r.listing files)).countP fun (_, v) => v.severity == .warning

/-! ## One pass -/

section Text

variable (scanned : Int) (time : String)

@[simp] theorem ListEntry.text_file (path : String) : text scanned time (file path) = path := rfl

theorem Severity.label_eq (severity : Severity) :
    severity.label =
      (if severity == error then "✗" else "!") ++ " " ++ padded 7 severity.name := by
  cases severity with
  | error => decide +kernel
  | warning => decide +kernel
  | other word => exact String.append_assoc

theorem Violation.entry_eq (v : Violation) :
    v.entry = "  " ++ toString v.line ++ ":" ++ toString v.column ++ "  " ++
      (if v.severity == .error then "✗" else "!") ++ " " ++ padded 7 v.severity.name ++ "  " ++
        v.message ++ "  " ++ v.rule := rfl

@[simp] theorem ListEntry.text_violation (v : Violation) :
    text scanned time (violation v) = v.entry :=
  calc
    _ = "  " ++ toString v.line ++ ":" ++ toString v.column ++ "  " ++ v.severity.label ++ "  " ++
        v.message ++ "  " ++ v.rule := rfl
    _ = v.entry := by simp only [Severity.label_eq, Violation.entry_eq, String.append_assoc]

@[simp] theorem ListEntry.text_suggestion (v : Violation) :
    text scanned time (suggestion v) = "      → " ++ v.suggestion := rfl

@[simp] theorem ListEntry.text_separator : text scanned time separator = "" := rfl

theorem Violation.entries_eq (v : Violation) :
    v.entries = (ListEntry.ofViolation v).map (ListEntry.text scanned time) := by
  by_cases h : v.suggestion = ""
  · simp [entries, ListEntry.ofViolation, h]
  · simp [entries, ListEntry.ofViolation, h]

end Text

/-- Below the path of their file violations are listed without another heading. -/
theorem groupedEntries_append {file : String} {vs : List Violation} (h : ∀ v ∈ vs, v.file = file)
    (rest : List Violation) : groupedEntries (some file) (vs ++ rest) =
      vs.flatMap Violation.entries ++ groupedEntries (some file) rest := by
  induction vs with
  | nil => rfl
  | cons v vs ih =>
    obtain ⟨hv, hvs⟩ := List.forall_mem_cons.1 h
    rw [List.cons_append, groupedEntries, hv, ih hvs]
    simp

/-- Where a file begins its path is listed, behind an empty entry if there is a file before. -/
theorem groupedEntries_heading {current : Option String} {file : String} {vs : List Violation}
    (hcurrent : current ≠ some file) (hne : vs ≠ []) (h : ∀ v ∈ vs, v.file = file)
    (rest : List Violation) : groupedEntries current (vs ++ rest) =
      (if current.isSome then [""] else []) ++ file :: vs.flatMap Violation.entries ++
        groupedEntries (some file) rest := by
  obtain ⟨v, vs, rfl⟩ := List.exists_cons_of_ne_nil hne
  obtain ⟨hv, hvs⟩ := List.forall_mem_cons.1 h
  have hpass := groupedEntries_append hvs rest
  cases current with
  | none => simp [groupedEntries, hv, hpass]
  | some path =>
    have hpath : path ≠ file := fun heq => hcurrent (congrArg some heq)
    simp [groupedEntries, hv, hpass, hpath]

section Blocks

variable {vs : List Violation} {path : String} (scanned : Int) (time : String)

theorem Violation.file_of_mem_ofFile : ∀ v ∈ ofFile vs path, v.file = path := by
  intro v hv
  simpa using (List.mem_filter.1 hv).2

theorem Violation.ofFile_ne_nil (h : ∃ v ∈ vs, v.file = path) : ofFile vs path ≠ [] := by
  obtain ⟨v, hv, rfl⟩ := h
  exact List.ne_nil_of_mem (List.mem_filter.2 ⟨hv, beq_self_eq_true v.file⟩)

theorem ListEntry.map_text_block :
    (block vs path).map (text scanned time) =
      path :: (Violation.ofFile vs path).flatMap Violation.entries := by
  rw [block, List.map_cons, List.map_flatMap]
  refine congrArg (path :: ·) (List.flatMap_congr fun v _ => ?_)
  exact (v.entries_eq scanned time).symm

/-- **Blocks.** The files that are still to come have a block each, behind an empty entry. -/
theorem groupedEntries_flatMap {current : String} {files : List String}
    (hfiles : (current :: files).Nodup) (hfound : ∀ file ∈ files, ∃ v ∈ vs, v.file = file) :
    groupedEntries (some current) (files.flatMap (Violation.ofFile vs)) =
      (files.flatMap fun file => ListEntry.separator :: ListEntry.block vs file).map
        (ListEntry.text scanned time) := by
  induction files generalizing current with
  | nil => rfl
  | cons file files ih =>
    obtain ⟨hcurrent, hrest⟩ := List.nodup_cons.1 hfiles
    obtain ⟨hfile, hfound⟩ := List.forall_mem_cons.1 hfound
    have hne : some current ≠ some file := by
      intro heq
      exact hcurrent (Option.some.inj heq ▸ List.mem_cons_self)
    rw [List.flatMap_cons, groupedEntries_heading hne (Violation.ofFile_ne_nil hfile)
      Violation.file_of_mem_ofFile, ih hrest hfound, List.flatMap_cons, List.map_append,
      List.map_cons, ListEntry.map_text_block]
    rfl

end Blocks

/-! ## The list -/

namespace Results

variable {r : Results} {files : List String}

theorem groupedEntries_none (hfiles : files.Nodup)
    (hfound : ∀ file ∈ files, ∃ v ∈ r.violations, v.file = file) (scanned : Int) (time : String) :
    groupedEntries none (files.flatMap (Violation.ofFile r.violations)) =
      ([ListEntry.separator].intercalate (files.map (ListEntry.block r.violations))).map
        (ListEntry.text scanned time) := by
  cases files with
  | nil => rfl
  | cons file files =>
    obtain ⟨hfile, hrest⟩ := List.forall_mem_cons.1 hfound
    rw [List.flatMap_cons, groupedEntries_heading (by simp) (Violation.ofFile_ne_nil hfile)
      Violation.file_of_mem_ofFile, groupedEntries_flatMap scanned time hfiles hrest,
      intercalate_map_cons, List.map_append, ListEntry.map_text_block]
    rfl

end Results

/-! ## Places -/

namespace ListEntry

variable {vs : List Violation}

theorem located_append_ofViolation (above : Option String) (vs : List Violation)
    (rest : List ListEntry) : located above (vs.flatMap ofViolation ++ rest) =
      vs.map (fun v => (above, v)) ++ located above rest := by
  induction vs with
  | nil => rfl
  | cons v vs ih =>
    rw [List.flatMap_cons, List.append_assoc, ofViolation]
    by_cases h : v.suggestion = ""
    · rw [if_pos h]
      show (above, v) :: located above (vs.flatMap ofViolation ++ rest) = _
      rw [ih]
      rfl
    · rw [if_neg h]
      show (above, v) :: located above (vs.flatMap ofViolation ++ rest) = _
      rw [ih]
      rfl

theorem located_append_block (above : Option String) (path : String) (rest : List ListEntry) :
    located above (block vs path ++ rest) =
      (Violation.ofFile vs path).map (fun v => (some v.file, v)) ++ located (some path) rest := by
  show located (some path) ((Violation.ofFile vs path).flatMap ofViolation ++ rest) = _
  rw [located_append_ofViolation]
  refine congrArg (· ++ _) (List.map_congr_left ?_)
  intro v hv
  rw [Violation.file_of_mem_ofFile v hv]

theorem located_append_blocks (above : Option String) (files : List String)
    {rest : List ListEntry} (hrest : ∀ above, located above rest = []) :
    located above ((files.flatMap fun file => separator :: block vs file) ++ rest) =
      (files.flatMap (Violation.ofFile vs)).map fun v => (some v.file, v) := by
  induction files generalizing above with
  | nil => exact hrest above
  | cons file files ih =>
    rw [List.flatMap_cons, List.append_assoc, List.flatMap_cons, List.map_append, ← ih (some file),
      ← located_append_block above]
    rfl

end ListEntry

namespace Results

variable {r : Results} {files : List String}

/-- **Places.** Read from the top, the list has each violation below its own file. -/
theorem located_listing (hviolations : r.violations = files.flatMap (Violation.ofFile r.violations)) :
    ListEntry.located none (r.listing files) = r.violations.map fun v => (some v.file, v) := by
  unfold listing
  cases files with
  | nil =>
    have hnone : r.violations = [] := hviolations
    rw [hnone]
    rfl
  | cons file files =>
    by_cases hempty : r.violations.isEmpty
    · rw [if_pos hempty, List.isEmpty_iff.1 hempty]
      rfl
    · rw [if_neg hempty, intercalate_map_cons, List.append_assoc, ListEntry.located_append_block]
      show _ ++ ListEntry.located _ ((files.flatMap fun file =>
        ListEntry.separator :: ListEntry.block r.violations file) ++ _) = _
      rw [ListEntry.located_append_blocks _ _ fun _ => rfl, ← List.map_append,
        ← List.flatMap_cons, ← hviolations]

theorem totals_of_eq_zero (h : r.summary.total = 0) :
    r.totals = ListEntry.clean.text r.filesScanned r.summary.executionTime := by
  rw [totals, if_pos (beq_iff_eq.2 h)]
  rfl

theorem totals_of_ne_zero (h : r.summary.total ≠ 0) :
    r.totals = (ListEntry.totals r.summary.total r.summary.errors r.summary.warnings).text
      r.filesScanned r.summary.executionTime := by
  rw [totals, if_neg (mt beq_iff_eq.1 h)]
  rfl

theorem entries_of_nil (hnil : r.violations = []) (h : r.summary.total = 0) :
    r.entries = [r.totals] := by
  simp [entries, hnil, h, groupedEntries]

theorem entries_of_ne_nil (hne : r.violations ≠ []) (h : r.summary.total ≠ 0) :
    r.entries = groupedEntries none r.violations ++ ["", r.totals] := by
  obtain ⟨v, vs, hvs⟩ := List.exists_cons_of_ne_nil hne
  have hbody : groupedEntries none r.violations ≠ [] := by
    rw [hvs]
    simp [groupedEntries, Violation.entries]
  simp [entries, hbody, h]

/-- The entries of results with totals of their own are the texts of the list. -/
theorem entries_eq_listing (hfiles : files.Nodup)
    (hfound : ∀ file ∈ files, ∃ v ∈ r.violations, v.file = file)
    (hviolations : r.violations = files.flatMap (Violation.ofFile r.violations))
    (htotal : r.summary.total = r.violations.length) :
    r.entries = (r.listing files).map (ListEntry.text r.filesScanned r.summary.executionTime) := by
  have hbody := groupedEntries_none hfiles hfound r.filesScanned r.summary.executionTime
  rw [← hviolations] at hbody
  by_cases hempty : r.violations = []
  · have hzero : r.summary.total = 0 := by rw [htotal, hempty, List.length_nil]
    rw [entries_of_nil hempty hzero, totals_of_eq_zero hzero, listing, hempty]
    rfl
  · have hpos : r.summary.total ≠ 0 := by
      rw [htotal]
      exact fun hzero => hempty (List.length_eq_zero_iff.1 hzero)
    have hsome : ¬ r.violations.isEmpty = true := mt List.isEmpty_iff.1 hempty
    rw [entries_of_ne_nil hempty hpos, totals_of_ne_zero hpos, hbody, listing, if_neg hsome,
      List.map_append]
    rfl

end Results

/-! ## Runs -/

namespace Results

variable {r : Results} {files : List String}

theorem groupedBy_of_flatMap (hfiles : files.Pairwise (· < ·))
    (hfound : ∀ file ∈ files, ∃ v ∈ r.violations, v.file = file)
    (hviolations : r.violations = files.flatMap (Violation.ofFile r.violations))
    {milliseconds : Binary64} {now : Moment}
    (hsummary : r.summary = .of r.violations milliseconds now) : r.GroupedBy files := by
  have hlocated := located_listing hviolations
  have htotal : r.summary.total = r.violations.length := by rw [hsummary]; rfl
  have hentries :=
    entries_eq_listing (Text.nodup_of_pairwise_lt hfiles) hfound hviolations htotal
  refine ⟨hfiles, ?_, hentries, congrArg ("\n".intercalate ·) hentries, hlocated, ?_, ?_, ?_⟩
  · intro file
    refine ⟨hfound file, ?_⟩
    rintro ⟨v, hv, rfl⟩
    rw [hviolations] at hv
    obtain ⟨file, hfile, hv⟩ := List.mem_flatMap.1 hv
    rwa [Violation.file_of_mem_ofFile v hv]
  · rw [hlocated, List.length_map, htotal]
  · rw [hlocated, List.countP_map, hsummary, List.countP_eq_length_filter]
    rfl
  · rw [hlocated, List.countP_map, hsummary, List.countP_eq_length_filter]
    rfl

end Results

/-- **The grouped list.** The list of a run over a project has one block for each file with
violations, in the order of the paths, and each violation stands below its own file. The totals are
those of the listed violations. -/
theorem analyze_grouped [SourceReader] {d : Disk} {root : String} {c : Config} {scope : Scope}
    {clock : Clock} {results : Results} (hnamed : d.root.WellNamed)
    (hdistinct : d.root.HasDistinctNames) (h : (analyze d root c scope clock).value = .ok results) :
    ∃ files, results.GroupedBy files := by
  obtain ⟨e, files, he, -, hincreasing, hresults, hviolations⟩ :=
    exists_found_of_analyze hnamed hdistinct h
  have hrules := (Config.independent_engine he).declares
  have hnodup := Text.nodup_of_pairwise_lt hincreasing
  have hown : ∀ file ∈ files, e.found d.readText (c.runContext root files d.view) file =
      Violation.ofFile results.violations file := by
    intro file hfile
    rw [hviolations]
    exact (Engine.filter_found hrules hnodup hfile).symm
  have hall : results.violations = files.flatMap (Violation.ofFile results.violations) := by
    rw [← List.flatMap_congr hown]
    exact hviolations
  refine ⟨files.filter fun file => !(Violation.ofFile results.violations file).isEmpty,
    Results.groupedBy_of_flatMap (hincreasing.filter _) ?_ ?_ (congrArg Results.summary hresults)⟩
  · intro file hfile
    obtain ⟨v, hv⟩ := List.exists_mem_of_ne_nil _
      (by simpa using (List.mem_filter.1 hfile).2 : Violation.ofFile results.violations file ≠ [])
    exact ⟨v, (List.mem_filter.1 hv).1, Violation.file_of_mem_ofFile v hv⟩
  · rw [flatMap_filter_eq]
    refine hall.trans (List.flatMap_congr fun file _ => ?_)
    cases Violation.ofFile results.violations file <;> rfl

/-- Two files that are given and are not there have a block each. -/
theorem analyze_grouped_missing :
    ∃ results files,
      (analyze Shop.disk "/" .standard (.given ["app/b.ts", "app/a.ts"])
        ⟨default, default⟩).value = .ok results ∧
      results.GroupedBy files ∧ "app/a.ts" ∈ files ∧ "app/b.ts" ∈ files := by
  obtain ⟨e, he⟩ : ∃ e, Config.standard.engine = .ok e := ⟨_, rfl⟩
  have hpicked : (Selection.pick "/" ["app/b.ts", "app/a.ts"]).value = ["app/a.ts", "app/b.ts"] :=
    Text.sorted_eq_of_perm (by decide +kernel) (by decide +kernel)
  obtain ⟨results, hresults, hexplains⟩ := explains_of_engine he Shop.disk.readText Shop.disk.view
    "/" ["app/a.ts", "app/b.ts"] ⟨default, default⟩
  have hanalyzed : (analyze Shop.disk "/" .standard (.given ["app/b.ts", "app/a.ts"])
      ⟨default, default⟩).value = .ok results := by
    unfold analyze
    simp only [he, Scope.files, hpicked, hresults]
    rfl
  obtain ⟨files, hgrouped⟩ :=
    analyze_grouped Shop.wellNamed_disk Shop.hasDistinctNames_disk hanalyzed
  have hread : ∀ file ∈ ["app/a.ts", "app/b.ts"],
      Shop.disk.readBytes (Path.below "/" file) = .error .notFound := by
    decide +kernel
  have hlisted : ∀ file ∈ ["app/a.ts", "app/b.ts"], file ∈ files := by
    intro file hfile
    have hrun := Text.mem_sorted.2 hfile
    have htree : treeOf? (Path.below "/" file) (Shop.disk.readText (Path.below "/" file)) = none := by
      rw [Disk.readText, hread file hfile]
      rfl
    obtain ⟨first, rest, hfound, hfirst, -⟩ := (hexplains.files file hrun).unparsed htree
    refine (hgrouped.mem_iff file).2 ⟨first, ?_, hfirst.file_eq⟩
    rw [hexplains.violations]
    exact List.mem_flatMap.2 ⟨file, hrun, hfound ▸ List.mem_cons_self⟩
  exact ⟨results, files, hanalyzed, hgrouped, hlisted _ (by decide), hlisted _ (by decide)⟩

end SliceLint
