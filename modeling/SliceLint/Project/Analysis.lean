import SliceLint.Config.RuleOptions
import SliceLint.Disk.Change
import SliceLint.Engine.FileReport
import SliceLint.Project.Selection
import SliceLint.Report.JsonDocument

/-!
# Analysing a project

A run takes the rules that the configuration enables, selects the files, and collects what the
rules report on each of them, in the order of their paths.
-/

namespace SliceLint

/-- Why a run stops. -/
inductive RunFault where
  | options (fault : OptionFault)
  | selection (fault : SelectionFault)
  | wording (fault : WordingFault)

/-- How long a run took, and when it ended. -/
structure Clock where
  milliseconds : Binary64
  now : Moment

/-- Which files a run is about: those of the project, or those given. -/
inductive Scope where
  | project
  | given (paths : List String)

/-- The files of a run. -/
def Scope.files (scope : Scope) (d : Disk) (root : String) (c : Config) :
    Logged (Except SelectionFault (List String)) :=
  match scope with
  | project => Selection.discover d root c
  | given paths =>
    let picked := Selection.pick root paths
    ⟨picked.log, .ok picked.value⟩

namespace Engine

/-- The reports on several files; a fault of wording stops the run. -/
def reports [SourceReader] (e : Engine) (read : String → Except Fault String) (run : RunContext) :
    List String → Logged (Except WordingFault (List Violation))
  | [] => ⟨[], .ok []⟩
  | file :: rest =>
    let path := Path.below run.projectRoot file
    match e.report path file run (read path) with
    | .error f => ⟨[], .error f⟩
    | .ok r =>
      let others := e.reports read run rest
      ⟨r.log ++ others.log, others.value.map (r.violations ++ ·)⟩

end Engine

/-- The note that sums up a run. -/
def Results.note (r : Results) (rules : Nat) : LogEntry :=
  ⟨.info, LogEntry.runChannel,
    "Analyzed " ++ toString r.filesScanned ++ " files with " ++ toString rules ++ " rules: " ++
      toString r.summary.total ++ " violations (" ++ toString r.summary.errors ++ " errors, " ++
      toString r.summary.warnings ++ " warnings)"⟩

/-- What all files of a run over a project share. -/
def Config.runContext (c : Config) (root : String) (files : List String) (view : FileView) :
    RunContext :=
  .build root c.sourceRoot c.aliases c.hierarchy files view

/-- Analyse files with rules. The texts of the files come from `read`; what rules ask about other
files is answered by `view`. -/
def analyzeFiles [SourceReader] (read : String → Except Fault String) (view : FileView)
    (root : String) (c : Config) (e : Engine) (files : List String) (clock : Clock) :
    Logged (Except WordingFault Results) :=
  let run := c.runContext root files view
  let reported := e.reports read run run.files
  match reported.value with
  | .error f => ⟨reported.log, .error f⟩
  | .ok violations =>
    let results := Results.of violations run.files.length clock.milliseconds clock.now
    ⟨reported.log ++ [results.note e.rules.length], .ok results⟩

/-- Analyse a project. -/
def analyze [SourceReader] (d : Disk) (root : String) (c : Config) (scope : Scope) (clock : Clock) :
    Logged (Except RunFault Results) :=
  match c.engine with
  | .error f => ⟨[], .error (.options f)⟩
  | .ok e =>
    let selected := scope.files d root c
    match selected.value with
    | .error f => ⟨selected.log, .error (.selection f)⟩
    | .ok files =>
      let analyzed := analyzeFiles d.readText d.view root c e files clock
      ⟨selected.log ++ analyzed.log, analyzed.value.mapError .wording⟩

/-- The bytes of the results as they are kept. -/
def Results.artifact (r : Results) : List UInt8 := (r.json ++ "\n").toUTF8.data.toList

/-- Keep the results in a file. -/
def Results.keep (r : Results) (d : Disk) (path : String) : Logged Disk.Change :=
  match d.writeBelow path r.artifact with
  | (.ok (), changed) =>
    ⟨[⟨.debug, LogEntry.runChannel, "Wrote " ++ path⟩], (.ok (), changed)⟩
  | failed => ⟨[], failed⟩

end SliceLint
