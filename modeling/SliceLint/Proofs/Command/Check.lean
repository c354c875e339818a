import SliceLint.Command.Run
import SliceLint.Proofs.Disk.ReadBack
import SliceLint.Proofs.Project.Completion

/-!
# How a check ends

**Refused** (`Outcome.Refuses`). Where the configuration cannot be loaded or its rules cannot be
made, and where the files of the project are asked for and its source root is no folder, a check
ends with 2, shows nothing and leaves the disk as it is.

**Reported** (`CheckOptions.Reports`). Otherwise there are results. They are kept in one file,
unless they are not to be kept, and all other files stay. The same results are shown, and they
decide whether the check ends with 0 or 1.

**Crashes** (`Outcome.CrashesWith`). A few faults are told to no user. A reader of documents that
fails stops the program (`LoadFault.Untold`), and so do a path that is too long for the disk to say
what it leads to, and results that cannot be kept. Then no file changes either.

**Readers.** All this holds whatever reads the sources, the configuration and the arguments. Of what
reads the arguments one law is needed: the path of the results comes as it is spelled
(`ArgumentReader.SpellsOutput`).

Main result: `check_ends`.
-/

namespace SliceLint

/-! ## Ends of a command -/

namespace Outcome

/-- The command is refused. -/
structure Refuses (out : Outcome) (d : Disk) : Prop where
  status : out.status = 2
  output : out.output = ""
  crash : out.crash? = none
  disk : out.disk = d

/-- The command crashes. -/
structure CrashesWith (out : Outcome) (fault : Fault) : Prop where
  status : out.status = 1
  output : out.output = ""
  crash : out.crash? = some fault

theorem refuses_refused (d : Disk) (notes message : String) : (refused d notes message).Refuses d :=
  ⟨rfl, rfl, rfl, rfl⟩

theorem crashesWith_crashed (d : Disk) (notes : String) (fault : Fault) :
    (crashed d notes fault).CrashesWith fault := ⟨rfl, rfl, rfl⟩

end Outcome

/-- The faults of a configuration that no user is told about: the search for the file fails, or the
reader of the document does. -/
inductive LoadFault.Untold : LoadFault → Prop
  | search (fault : Fault) : Untold (.unsearchable fault)
  | reader (name : String) (fault : Fault) : Untold (.document name (.failed fault))

theorem LoadFault.untold_iff {f : LoadFault} : f.Untold ↔ f.isInvalid = false := by
  constructor
  · rintro (_ | _) <;> rfl
  · intro h
    cases f with
    | unsearchable fault => exact .search fault
    | document name fault =>
      cases fault with
      | failed fault => exact .reader name fault
      | _ => cases h
    | _ => cases h

/-! ## Options of a check -/

namespace Request

theorem isSpelled_of_writable {d : Disk} {name text path : String}
    (h : writable d name text = .ok path) : Path.IsSpelled path := by
  unfold writable at h
  split at h
  · cases h
  · cases h
    exact Path.isSpelled_spelled text

theorem output?_of_readCheck {d : Disk} {a : Arguments} {o : CheckOptions}
    (h : readCheck d a = .ok o) : ∀ path, o.output? = some path → Path.IsSpelled path := by
  obtain ⟨files, -, h⟩ := bind_eq_ok h
  obtain ⟨place, -, h⟩ := bind_eq_ok h
  obtain ⟨form?, -, h⟩ := bind_eq_ok h
  obtain ⟨output?, houtput, h⟩ := bind_eq_ok h
  obtain ⟨-, -, h⟩ := bind_eq_ok h
  cases h
  rintro path rfl
  cases hvalue : a.value? "output" with
  -- Without the option there is no path to speak of.
  | none =>
    rw [hvalue] at houtput
    cases houtput
  | some text =>
    rw [hvalue] at houtput
    obtain ⟨path', hpath, heq⟩ := bind_eq_ok houtput
    cases heq
    exact isSpelled_of_writable hpath

theorem readCheck_of_command {d : Disk} {name : String} {forms : List OptionForm}
    {make : Arguments → Except UsageFault Task} {a : Arguments} {o : CheckOptions}
    (h : command? d name = some (forms, make)) (hmake : make a = .ok (.check o)) :
    readCheck d a = .ok o := by
  unfold command? at h
  split at h <;> cases h <;> obtain ⟨o', hread, heq⟩ := map_eq_ok hmake <;> cases heq
  exact hread

theorem readCheck_of_ofArguments {d : Disk} {args : List String} {v : Verbosity} {quiet : Bool}
    {o : CheckOptions} (h : ofArguments d args = .ok (.task v quiet (.check o))) :
    ∃ a, readCheck d a = .ok o := by
  obtain ⟨lead, -, h⟩ := bind_eq_ok h
  split at h
  · split at h <;> cases h
  split at h
  · cases h
  · rename_i name rest _
    unfold readTask at h
    split at h
    · cases h
    · rename_i forms make hcommand
      obtain ⟨a, -, h⟩ := bind_eq_ok h
      split at h
      · cases h
      · obtain ⟨t, hmake, h⟩ := bind_eq_ok h
        cases h
        exact ⟨a, readCheck_of_command hcommand hmake⟩

end Request

/-- The path of the results comes as it is spelled. -/
class ArgumentReader.SpellsOutput [ArgumentReader] : Prop where
  isSpelled {d : Disk} {args : List String} {v : Verbosity} {quiet : Bool} {o : CheckOptions}
    {path : String} : read d args = .ok (.task v quiet (.check o)) → o.output? = some path →
      Path.IsSpelled path

instance ArgumentReader.spellsOutput_reader : SpellsOutput where
  isSpelled h houtput := by
    obtain ⟨a, hread⟩ := Request.readCheck_of_ofArguments h
    exact Request.output?_of_readCheck hread _ houtput

theorem CheckOptions.isSpelled_outputPath {o : CheckOptions}
    (h : ∀ path, o.output? = some path → Path.IsSpelled path) (root : String) (c : Config) :
    Path.IsSpelled (o.outputPath root c) := by
  rw [outputPath]
  cases houtput : o.output? with
  | some path => exact h path houtput
  | none => exact Path.isSpelled_below root c.output

/-! ## Results -/

theorem Results.hasErrors_of (violations : List Violation) (filesScanned : Int)
    (milliseconds : Binary64) (now : Moment) :
    (Results.of violations filesScanned milliseconds now).hasErrors = true ↔
      ∃ v ∈ violations, v.severity = .error := by
  rw [hasErrors, Results.of, Summary.of, decide_eq_true_iff, gt_iff_lt,
    List.length_pos_iff_exists_mem]
  simp only [List.mem_filter, beq_iff_eq]

theorem Results.value_keep (r : Results) (d : Disk) (path : String) :
    (r.keep d path).value = d.writeBelow path r.artifact := by
  unfold keep
  rcases d.writeBelow path r.artifact with ⟨⟨⟩ | ⟨⟩, changed⟩ <;> rfl

/-- A run that selects files has results, and their totals are those of the violations. -/
theorem exists_analyze [SourceReader] {d : Disk} {root : String} {c : Config} {e : Engine}
    {scope : Scope} {files : List String} (he : c.engine = .ok e)
    (hfiles : (scope.files d root c).value = .ok files) (clock : Clock) :
    ∃ r, (analyze d root c scope clock).value = .ok r ∧
      (r.hasErrors = true ↔ ∃ v ∈ r.violations, v.severity = .error) := by
  obtain ⟨r, hr, -⟩ := analyzeFiles_eq (Config.independent_engine he).declares d.readText d.view
    root c files clock
  refine ⟨r, ?_, ?_⟩
  · simp only [analyze, he, hfiles, hr]
    rfl
  · rw [results_of_analyzeFiles hr]
    exact Results.hasErrors_of r.violations files.length clock.milliseconds clock.now

/-! ## Ends of a check -/

namespace CheckOptions

/-- The check fails as it was asked to. -/
def FailsOn (o : CheckOptions) (r : Results) : Prop :=
  (o.failsOnWarning = true ∧ r.violations ≠ []) ∨
    (o.strict = true ∧ ∃ v ∈ r.violations, v.severity = .error)

/-- The text of the results in the form asked for. Where none is asked for, a terminal gets the
grouped list, and all else gets one line for each violation. -/
inductive Shows (o : CheckOptions) (terminal : Bool) (r : Results) : String → Prop
  | rich (h : o.form? = some .rich ∨ o.form? = none ∧ terminal = true) : Shows o terminal r r.rich
  | json (h : o.form? = some .json) : Shows o terminal r r.json
  | porcelain (h : o.form? = some .porcelain ∨ o.form? = none ∧ terminal = false) :
      Shows o terminal r r.porcelain

/-- The check keeps and shows results. -/
structure Reports (o : CheckOptions) (quiet terminal : Bool) (d : Disk) (c : Config) (r : Results)
    (out : Outcome) : Prop where
  output : ∃ text, o.Shows terminal r text ∧
    out.output = if text = "" ∨ quiet = true ∧ r.violations = [] then "" else text ++ "\n"
  crash : out.crash? = none
  fails : o.FailsOn r → out.status = 1
  passes : ¬ o.FailsOn r → out.status = 0
  kept : o.keepsResults = true →
    out.disk.readBytes (o.outputPath (o.place.root d) c) =
        .ok (r.json ++ "\n").toUTF8.data.toList ∧
      Disk.Gains d out.disk (d.place (o.outputPath (o.place.root d) c))
        (r.json ++ "\n").toUTF8.data.toList
  unkept : o.keepsResults = false → out.disk = d

/-- How a check ends on a disk. -/
structure Ends [SourceReader] [DocumentReader] (o : CheckOptions) (quiet terminal : Bool) (d : Disk)
    (clock : Clock) (out : Outcome) : Prop where
  invalid : ∀ f, (o.place.load d).value = .error f → ¬ f.Untold → out.Refuses d
  untold : ∀ f, (o.place.load d).value = .error f → f.Untold →
    out.CrashesWith f.shown ∧ out.disk = d
  options : ∀ c f, (o.place.load d).value = .ok c → c.engine = .error f → out.Refuses d
  missing : ∀ c e, (o.place.load d).value = .ok c → c.engine = .ok e → o.files = [] →
    d.isFolder (Path.below (o.place.root d) c.sourceRoot) = .ok false → out.Refuses d
  overlong : ∀ c e f, (o.place.load d).value = .ok c → c.engine = .ok e → o.files = [] →
    d.isFolder (Path.below (o.place.root d) c.sourceRoot) = .error f →
    out.CrashesWith f ∧ out.disk = d
  results : ∀ c e, (o.place.load d).value = .ok c → c.engine = .ok e →
    (o.files = [] → d.isFolder (Path.below (o.place.root d) c.sourceRoot) = .ok true) →
    ∃ r, (analyze d (o.place.root d) c (o.scope d) clock).value = .ok r ∧
      (∀ changed, (o.keep r d (o.place.root d) c).value = (.ok (), changed) →
        o.Reports quiet terminal d c r out) ∧
      ∀ f changed, (o.keep r d (o.place.root d) c).value = (.error f, changed) →
        out.CrashesWith f ∧ Disk.SameFiles d out.disk

variable {o : CheckOptions} {d : Disk} {c : Config}

section Run

variable [SourceReader] [DocumentReader] (least : LogLevel) (quiet terminal : Bool) (clock : Clock)

theorem run_of_load {f : LoadFault} (hload : (o.place.load d).value = .error f) :
    ∃ notes, o.run least quiet terminal d clock = f.outcome d notes := by
  simp only [run, hload]
  exact ⟨_, rfl⟩

theorem run_of_analyze {f : RunFault} (hload : (o.place.load d).value = .ok c)
    (h : (analyze d (o.place.root d) c (o.scope d) clock).value = .error f) :
    ∃ notes, o.run least quiet terminal d clock = f.outcome d notes := by
  simp only [run, hload, Logged.after, h]
  exact ⟨_, rfl⟩

theorem run_of_results {r : Results} (hload : (o.place.load d).value = .ok c)
    (h : (analyze d (o.place.root d) c (o.scope d) clock).value = .ok r) :
    ∃ log, o.run least quiet terminal d clock = o.finish least quiet terminal d c log r := by
  simp only [run, hload, Logged.after, h]
  exact ⟨_, rfl⟩

theorem run_of_discover {e : Engine} {f : SelectionFault}
    (hload : (o.place.load d).value = .ok c) (he : c.engine = .ok e) (hfiles : o.files = [])
    (h : (Selection.discover d (o.place.root d) c).value = .error f) :
    ∃ notes, o.run least quiet terminal d clock = (RunFault.selection f).outcome d notes := by
  refine run_of_analyze least quiet terminal clock hload ?_
  simp only [analyze, he, scope, hfiles, List.isEmpty_nil, if_true, Scope.files, h]

end Run

/-- Files that are given are selected, and so are those of a project whose source root is a folder.
-/
theorem exists_files
    (h : o.files = [] → d.isFolder (Path.below (o.place.root d) c.sourceRoot) = .ok true) :
    ∃ files, ((o.scope d).files d (o.place.root d) c).value = .ok files := by
  rw [scope]
  split
  · rename_i hempty
    have hfolder := h (List.isEmpty_iff.1 hempty)
    rcases Selection.discover_cases d (o.place.root d) c with hfiles | ⟨hmissing, -⟩ | ⟨hlong, -⟩
    · exact hfiles
    · rw [hfolder] at hmissing
      cases hmissing
    · rw [Disk.isFolder, Disk.holds, hlong] at hfolder
      cases hfolder
  · exact ⟨_, rfl⟩

theorem status_eq {r : Results}
    (herrors : r.hasErrors = true ↔ ∃ v ∈ r.violations, v.severity = .error) :
    (o.FailsOn r → o.status r = 1) ∧ (¬ o.FailsOn r → o.status r = 0) := by
  have hwarning : (o.failsOnWarning && !r.violations.isEmpty) = true ↔
      o.failsOnWarning = true ∧ r.violations ≠ [] := by
    simp
  have hstrict : (o.strict && r.hasErrors) = true ↔
      o.strict = true ∧ ∃ v ∈ r.violations, v.severity = .error := by
    rw [Bool.and_eq_true, herrors]
  rw [FailsOn, ← hwarning, ← hstrict, status]
  constructor
  · rintro (hw | hs)
    · rw [if_pos hw]
    · rw [if_pos hs, ite_self]
  · intro hneither
    rw [if_neg fun hw => hneither (.inl hw), if_neg fun hs => hneither (.inr hs)]

/-- Results that are kept lie at their place, and no other file changes; results that are not to be
kept, or that cannot be, change no file. -/
theorem files_keep (hpath : Path.IsSpelled (o.outputPath (o.place.root d) c)) (r : Results) :
    (∀ changed, (o.keep r d (o.place.root d) c).value = (.ok (), changed) →
      (o.keepsResults = true →
        changed.readBytes (o.outputPath (o.place.root d) c) = .ok r.artifact ∧
          Disk.Gains d changed (d.place (o.outputPath (o.place.root d) c)) r.artifact) ∧
      (o.keepsResults = false → changed = d)) ∧
    ∀ f changed, (o.keep r d (o.place.root d) c).value = (.error f, changed) →
      Disk.SameFiles d changed := by
  cases hkeeps : o.keepsResults with
  | true =>
    simp only [keep, hkeeps, if_true, Results.value_keep]
    exact ⟨fun changed h => ⟨fun _ => ⟨Disk.readBytes_writeBelow hpath h,
        Disk.gains_writeBelow hpath.ne_empty h⟩, nofun⟩,
      fun f changed h => Disk.sameFiles_writeBelow h⟩
  | false =>
    simp only [keep, hkeeps, Bool.false_eq_true, if_false, Prod.mk.injEq]
    exact ⟨fun changed h => ⟨nofun, fun _ => h.2.symm⟩, fun f changed h => nomatch h.1⟩

theorem exists_shows (o : CheckOptions) (quiet terminal : Bool) (r : Results) :
    ∃ text, o.Shows terminal r text ∧ o.report quiet terminal r =
      if text = "" ∨ quiet = true ∧ r.violations = [] then "" else text ++ "\n" := by
  have hshows : o.Shows terminal r ((o.form terminal).shown r) := by
    unfold form
    cases hform : o.form? with
    | some form =>
      cases form with
      | rich => exact .rich (.inl hform)
      | json => exact .json hform
      | porcelain => exact .porcelain (.inl hform)
    | none =>
      cases hterminal : terminal with
      | true => exact .rich (.inr ⟨hform, rfl⟩)
      | false => exact .porcelain (.inr ⟨hform, rfl⟩)
  refine ⟨_, hshows, ?_⟩
  simp only [report, Bool.or_eq_true, Bool.and_eq_true, beq_iff_eq, List.isEmpty_iff]

/-- What a check with results does: it reports them, or it crashes where they cannot be kept. -/
theorem ends_finish (quiet terminal : Bool) {r : Results}
    (hpath : Path.IsSpelled (o.outputPath (o.place.root d) c))
    (herrors : r.hasErrors = true ↔ ∃ v ∈ r.violations, v.severity = .error) {out : Outcome}
    (hout : ∃ least log, out = o.finish least quiet terminal d c log r) :
    (∀ changed, (o.keep r d (o.place.root d) c).value = (.ok (), changed) →
      o.Reports quiet terminal d c r out) ∧
    ∀ f changed, (o.keep r d (o.place.root d) c).value = (.error f, changed) →
      out.CrashesWith f ∧ Disk.SameFiles d out.disk := by
  obtain ⟨least, log, rfl⟩ := hout
  obtain ⟨hkept, hfailed⟩ := files_keep hpath r
  obtain ⟨hfails, hpasses⟩ := status_eq (o := o) herrors
  constructor
  · intro changed hkeep
    obtain ⟨hgains, hsame⟩ := hkept changed hkeep
    simp only [finish, hkeep]
    exact ⟨exists_shows o quiet terminal r, rfl, hfails, hpasses, hgains, hsame⟩
  · intro f changed hkeep
    simp only [finish, hkeep]
    exact ⟨Outcome.crashesWith_crashed changed _ f, hfailed f changed hkeep⟩

theorem ends_run [SourceReader] [DocumentReader]
    (hpath : ∀ path, o.output? = some path → Path.IsSpelled path) (least : LogLevel)
    (quiet terminal : Bool) (clock : Clock) :
    o.Ends quiet terminal d clock (o.run least quiet terminal d clock) := by
  constructor
  case invalid =>
    intro f hload hinvalid
    obtain ⟨notes, hout⟩ := run_of_load least quiet terminal clock hload
    rw [LoadFault.untold_iff, Bool.not_eq_false] at hinvalid
    rw [hout, LoadFault.outcome, if_pos hinvalid]
    exact Outcome.refuses_refused d notes _
  -- The same fault, but the program does not tell it: it crashes before anything is written.
  case untold =>
    intro f hload huntold
    obtain ⟨notes, hout⟩ := run_of_load least quiet terminal clock hload
    rw [hout, LoadFault.outcome, LoadFault.untold_iff.1 huntold]
    exact ⟨Outcome.crashesWith_crashed d notes _, rfl⟩
  case options =>
    intro c f hload hoptions
    have hstops : (analyze d (o.place.root d) c (o.scope d) clock).value = .error (.options f) := by
      simp only [analyze, hoptions]
    obtain ⟨notes, hout⟩ := run_of_analyze least quiet terminal clock hload hstops
    rw [hout]
    exact Outcome.refuses_refused d notes _
  case missing =>
    intro c e hload he hfiles hfolder
    have hstops : (Selection.discover d (o.place.root d) c).value =
        .error (.missingRoot ⟨c.sourceRoot, o.place.root d⟩) := by
      simp only [Selection.discover, hfolder]
    obtain ⟨notes, hout⟩ := run_of_discover least quiet terminal clock hload he hfiles hstops
    rw [hout]
    exact Outcome.refuses_refused d notes _
  case overlong =>
    intro c e f hload he hfiles hfolder
    have hstops : (Selection.discover d (o.place.root d) c).value = .error (.disk f) := by
      simp only [Selection.discover, hfolder]
    obtain ⟨notes, hout⟩ := run_of_discover least quiet terminal clock hload he hfiles hstops
    rw [hout]
    exact ⟨Outcome.crashesWith_crashed d notes _, rfl⟩
  case results =>
    intro c e hload he hfolder
    obtain ⟨files, hfiles⟩ := exists_files hfolder
    obtain ⟨r, hr, herrors⟩ := exists_analyze he hfiles clock
    obtain ⟨log, hout⟩ := run_of_results least quiet terminal clock hload hr
    exact ⟨r, hr, ends_finish quiet terminal (isSpelled_outputPath hpath (o.place.root d) c) herrors
      ⟨least, log, hout⟩⟩

end CheckOptions

/-- **Ends of a check.** A check is refused where its configuration is invalid, and where the files
of a project are asked for whose source root is no folder. It crashes where its configuration has a
fault that no user is told about, where the disk does not say what the source root is, and where
its results cannot be kept. In all other cases it keeps its results and reports them. -/
theorem check_ends [SourceReader] [DocumentReader] [TableWriter] [ArgumentReader]
    [ArgumentReader.SpellsOutput] {d : Disk} {args : List String} {v : Verbosity} {quiet : Bool}
    {o : CheckOptions} (h : ArgumentReader.read d args = .ok (.task v quiet (.check o)))
    (terminal : Bool) (clock : Clock) :
    o.Ends quiet terminal d clock (runOn terminal d args clock) := by
  have hrun : runOn terminal d args clock = o.run v.least quiet terminal d clock := by
    simp only [runOn, h]
    rfl
  rw [hrun]
  exact CheckOptions.ends_run (fun path hpath => ArgumentReader.SpellsOutput.isSpelled h hpath)
    v.least quiet terminal clock

namespace Shop

/-- A check of the shop that keeps its results and fails on nothing. -/
def check : CheckOptions :=
  ⟨⟨none, none⟩, [], none, some "results.json", true, false, false⟩

theorem load_check : (check.place.load disk).value = .ok .standard := by
  have hfile : Config.findFile? disk (check.place.root disk) check.place.config? = .ok none := by
    decide +kernel
  simp only [ProjectOptions.load, Config.load, hfile]

theorem exists_keep_check (r : Results) :
    ∃ changed, (check.keep r disk (check.place.root disk) .standard).value = (.ok (), changed) := by
  have hspelled : Path.IsSpelled "results.json" := Path.isSpelled_spelled "results.json"
  obtain ⟨changed, hchanged⟩ := Disk.exists_writeBelow (d := disk) hspelled (by decide +kernel)
    (by decide +kernel) (by decide +kernel) r.artifact
  exact ⟨changed, (r.value_keep disk "results.json").trans hchanged⟩

end Shop

/-- The shop is checked on a terminal, and its results lie beside it. -/
theorem check_ends_shop :
    ∃ r : Results, (analyze Shop.disk "/" .standard .project ⟨default, default⟩).value = .ok r ∧
      (runOn true Shop.disk ["check", "--output", "results.json"] ⟨default, default⟩).status = 0 ∧
      (runOn true Shop.disk ["check", "--output", "results.json"] ⟨default, default⟩).output =
        (if r.rich = "" then "" else r.rich ++ "\n") ∧
      (runOn true Shop.disk ["check", "--output", "results.json"]
        ⟨default, default⟩).disk.readBytes "results.json" =
          .ok (r.json ++ "\n").toUTF8.data.toList := by
  have hrequest : ArgumentReader.read Shop.disk ["check", "--output", "results.json"] =
      .ok (.task .standard false (.check Shop.check)) := by decide +kernel
  have hroot : Shop.check.place.root Shop.disk = "/" := by decide +kernel
  have hfolder : Shop.disk.isFolder
      (Path.below (Shop.check.place.root Shop.disk) Config.standard.sourceRoot) = .ok true := by
    decide +kernel
  obtain ⟨e, he⟩ : ∃ e, Config.standard.engine = .ok e := ⟨_, rfl⟩
  obtain ⟨r, hr, hreports, -⟩ := (check_ends hrequest true ⟨default, default⟩).results .standard e
    Shop.load_check he fun _ => hfolder
  obtain ⟨changed, hkeep⟩ := Shop.exists_keep_check r
  have hends := hreports changed hkeep
  refine ⟨r, ?_, hends.passes ?_, ?_, (hends.kept rfl).1⟩
  · rwa [hroot] at hr
  · rintro (⟨h, -⟩ | ⟨h, -⟩) <;> cases h
  · obtain ⟨text, hshows, houtput⟩ := hends.output
    simp only [Bool.false_eq_true, false_and, or_false] at houtput
    rcases hshows with - | h | ⟨h | ⟨-, h⟩⟩
    · exact houtput
    all_goals cases h

/-- A shop whose configuration calls a word a truth value that is none. -/
def Shop.mistagged : Disk where
  root := .folder [("fsdlint.yml", .file "source_root: !!bool x\n".toUTF8.data.toList)]
  here := "/"

/-- A check whose configuration cannot be loaded crashes, and the user is told nothing. -/
theorem check_crashes_mistagged :
    (∃ f, (Config.load Shop.mistagged "/" none).value = .error f) ∧
    (runArguments Shop.mistagged ["check"] ⟨default, default⟩).status = 1 ∧
    (runArguments Shop.mistagged ["check"] ⟨default, default⟩).crash? =
      some ⟨"KeyError", "'x'"⟩ := by
  refine ⟨?_, by decide +kernel⟩
  have hfails : (Config.load Shop.mistagged "/" none).value.map (fun _ => ()) =
      .error (.document "fsdlint.yml" (.failed ⟨"KeyError", "'x'"⟩)) := by decide +kernel
  cases hvalue : (Config.load Shop.mistagged "/" none).value with
  | error f => exact ⟨f, rfl⟩
  | ok c =>
    rw [hvalue] at hfails
    cases hfails

end SliceLint
