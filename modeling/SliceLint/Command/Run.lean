import SliceLint.Command.Request
import SliceLint.Project.Analysis
import SliceLint.Project.ConfigFile
import SliceLint.Report.Listing
import SliceLint.Report.Table

/-!
# Running commands

A command reads a disk, says something, and leaves a disk. It ends with 0 if all is well, with 1
if a check fails as it was asked to, and with 2 if there is nothing to be checked: the command
line makes no sense, or the configuration does not.

Faults that no user is told about in words crash the program.

What is shown may depend on where it is shown: on a terminal results are grouped, unless another
form is asked for, and elsewhere they are one line each.
-/

namespace SliceLint

/-- What a command leads to. -/
structure Outcome where
  status : Nat
  output : String
  errors : String
  crash? : Option Fault
  disk : Disk

namespace Outcome

/-- Lines of text. -/
def shownLines (lines : List String) : String := String.join (lines.map (· ++ "\n"))

/-- The notes that weigh enough. -/
def shownNotes (least : LogLevel) (log : List LogEntry) : String :=
  shownLines ((log.filter (·.reaches least)).map LogEntry.shown)

/-- The command ends in order. -/
def done (d : Disk) (status : Nat) (output errors : String) : Outcome :=
  ⟨status, output, errors, none, d⟩

/-- The command is refused, after the notes made so far. -/
def refused (d : Disk) (notes message : String) : Outcome :=
  done d 2 "" (notes ++ "Error: " ++ message ++ "\n")

/-- The command crashes, after the notes made so far. -/
def crashed (d : Disk) (notes : String) (fault : Fault) : Outcome := ⟨1, "", notes, some fault, d⟩

end Outcome

namespace LoadFault

/-- The outcome of a command whose configuration cannot be loaded. -/
def outcome (f : LoadFault) (d : Disk) (notes : String) : Outcome :=
  if f.isInvalid then .refused d notes ("Invalid configuration: " ++ f.shown.text)
  else .crashed d notes f.shown

end LoadFault

namespace RunFault

/-- What is said about a run that stops, or the fault that crashes the program. -/
def shown : RunFault → Except Fault String
  | options f => .ok ("Invalid configuration: " ++ f.message)
  | selection (.missingRoot f) => .ok f.message
  | selection (.disk f) => .error f
  | wording (.undeclared id) => .error ⟨"KeyError", Text.quoted id⟩
  | wording (.missingDatum name) => .error ⟨"KeyError", Text.quoted name⟩

/-- The outcome of a run that stops. -/
def outcome (f : RunFault) (d : Disk) (notes : String) : Outcome :=
  match f.shown with
  | .ok message => .refused d notes message
  | .error fault => .crashed d notes fault

end RunFault

namespace ProjectOptions

/-- The root folder of the project. -/
def root (o : ProjectOptions) (d : Disk) : String :=
  Path.resolve (d.absolute (o.project?.getD "."))

/-- Load the configuration of the project. -/
def load [DocumentReader] (o : ProjectOptions) (d : Disk) : Logged (Except LoadFault Config) :=
  Config.load d (o.root d) o.config?

end ProjectOptions

/-! ## Checks -/

/-- The results in the form asked for. -/
def ReportForm.shown (form : ReportForm) (r : Results) : String :=
  match form with
  | rich => r.rich
  | json => r.json
  | porcelain => r.porcelain

namespace CheckOptions

/-- The files that a check is about. -/
def scope (o : CheckOptions) (d : Disk) : Scope :=
  if o.files.isEmpty then .project
  else .given (o.files.map fun file => Path.resolve (d.absolute file))

/-- Where the results are kept. -/
def outputPath (o : CheckOptions) (root : String) (c : Config) : String :=
  o.output?.getD (Path.below root c.output)

/-- Keep the results if asked to. -/
def keep (o : CheckOptions) (r : Results) (d : Disk) (root : String) (c : Config) :
    Logged Disk.Change :=
  if o.keepsResults then r.keep d (o.outputPath root c) else ⟨[], (.ok (), d)⟩

/-- The form in which results are shown, on a terminal or elsewhere. -/
def form (o : CheckOptions) (terminal : Bool) : ReportForm :=
  o.form?.getD (if terminal then .rich else .porcelain)

/-- What is shown of the results. -/
def report (o : CheckOptions) (quiet terminal : Bool) (r : Results) : String :=
  let text := (o.form terminal).shown r
  if text == "" || (quiet && r.violations.isEmpty) then "" else text ++ "\n"

/-- A check with these results ends with this number. -/
def status (o : CheckOptions) (r : Results) : Nat :=
  if o.failsOnWarning && !r.violations.isEmpty then 1
  else if o.strict && r.hasErrors then 1
  else 0

/-- Keep and show results, after the notes made so far. -/
def finish (o : CheckOptions) (least : LogLevel) (quiet terminal : Bool) (d : Disk) (c : Config)
    (log : List LogEntry) (r : Results) : Outcome :=
  let kept := o.keep r d (o.place.root d) c
  let notes := Outcome.shownNotes least (log ++ kept.log)
  match kept.value with
  | (.ok (), changed) => .done changed (o.status r) (o.report quiet terminal r) notes
  | (.error f, changed) => .crashed changed notes f

/-- Check a project. -/
def run [SourceReader] [DocumentReader] (o : CheckOptions) (least : LogLevel)
    (quiet terminal : Bool) (d : Disk) (clock : Clock) : Outcome :=
  let loaded := o.place.load d
  match loaded.value with
  | .error f => f.outcome d (Outcome.shownNotes least loaded.log)
  | .ok c =>
    let analyzed := (analyze d (o.place.root d) c (o.scope d) clock).after loaded.log
    match analyzed.value with
    | .error f => f.outcome d (Outcome.shownNotes least analyzed.log)
    | .ok r => o.finish least quiet terminal d c analyzed.log r

end CheckOptions

/-! ## Tables -/

namespace Config

/-- The layers, what each may import from, and whether it has slices. -/
def layerTable (c : Config) : Table where
  title := "Layers (" ++ c.sourceRoot ++ "/)"
  columns := [⟨"layer", .left⟩, ⟨"may import", .left⟩, ⟨"sliced", .center⟩]
  rows := Layer.all.map fun l =>
    let targets := (c.hierarchy.targets l).map Layer.name
    [l.name, if targets.isEmpty then "-" else ", ".intercalate targets,
      if l.isSliced then "yes" else "no"]

/-- The level of a rule as it is shown. -/
def levelName (c : Config) (b : Builtin) : String :=
  match (c.settings b).level? with
  | some level => level.name
  | none => b.info.severity.name

/-- The rules with their levels. -/
def ruleTable (c : Config) : Table where
  title := "Rules"
  columns := [⟨"rule", .left⟩, ⟨"severity", .left⟩, ⟨"description", .left⟩]
  rows := Builtin.all.map fun b => [b.id, c.levelName b, b.info.description]

end Config

/-- Show a table of a project. -/
def showTable [DocumentReader] [TableWriter] (o : ProjectOptions) (least : LogLevel) (d : Disk)
    (table : Config → Table) : Outcome :=
  let loaded := o.load d
  let notes := Outcome.shownNotes least loaded.log
  match loaded.value with
  | .error f => f.outcome d notes
  | .ok c => .done d 0 (Outcome.shownLines (TableWriter.lines (table c))) notes

/-! ## Requests -/

/-- How the program is used. -/
def usageText : String :=
  Outcome.shownLines
    ["Usage: fsdlint [OPTIONS] COMMAND [ARGS]...", "",
      "Options:", "  --version", "  -v, --verbose", "  -q, --quiet", "  --help", "",
      "Commands:", "  check   [--project DIRECTORY] [--config FILE] [--format rich|json|porcelain]",
      "          [-o, --output FILE] [--no-output] [-j, --jobs INTEGER] [--strict]",
      "          [--fail-on-warn] [FILES]...",
      "  layers  [--project DIRECTORY] [--config FILE]",
      "  rules   [--project DIRECTORY] [--config FILE]"]

/-- The name and the version of the program. -/
def versionText : String := "fsdlint, version 0.1.0\n"

section Readers

variable [SourceReader] [DocumentReader] [TableWriter]

/-- Do what is asked for. -/
def Task.run (t : Task) (least : LogLevel) (quiet terminal : Bool) (d : Disk) (clock : Clock) :
    Outcome :=
  match t with
  | check o => o.run least quiet terminal d clock
  | layers o => showTable o least d Config.layerTable
  | rules o => showTable o least d Config.ruleTable

/-- Do what is asked for. -/
def Request.run (r : Request) (terminal : Bool) (d : Disk) (clock : Clock) : Outcome :=
  match r with
  | version => .done d 0 versionText ""
  | help => .done d 0 usageText ""
  | task verbosity quiet t => t.run verbosity.least quiet terminal d clock

variable [ArgumentReader]

/-- Run a command line, on a terminal or elsewhere. -/
def runOn (terminal : Bool) (d : Disk) (args : List String) (clock : Clock) : Outcome :=
  match ArgumentReader.read d args with
  | .error f => .done d 2 "" (usageText ++ "\nError: " ++ f.message ++ "\n")
  | .ok request => request.run terminal d clock

/-- Run a command line where there is no terminal. -/
def runArguments (d : Disk) (args : List String) (clock : Clock) : Outcome :=
  runOn false d args clock

end Readers

end SliceLint
