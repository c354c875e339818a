import SliceLint.Command.Options
import SliceLint.Disk.Basic
import SliceLint.Log
import SliceLint.Text.Integer

/-!
# Requests

What a command line asks for. Paths that have to lead to something are looked up when the command
line is read.

**The reader** (`ArgumentReader`). What makes a request of arguments is not part of the program.
Where no other reader is named, the arguments are read as is said here.

The options that set how much is said come before the name of the command, all others behind it.
-/

namespace SliceLint

/-- The form in which results are shown. -/
inductive ReportForm where
  | rich
  | json
  | porcelain
deriving DecidableEq, Repr

namespace ReportForm

def ofName? : String → Option ReportForm
  | "rich" => some rich
  | "json" => some json
  | "porcelain" => some porcelain
  | _ => none

end ReportForm

/-- Where a project and its configuration lie. -/
structure ProjectOptions where
  project? : Option String
  config? : Option String
deriving DecidableEq, Repr

/-- How a project is checked. -/
structure CheckOptions where
  place : ProjectOptions
  files : List String
  form? : Option ReportForm
  output? : Option String
  keepsResults : Bool
  strict : Bool
  failsOnWarning : Bool
deriving DecidableEq, Repr

/-- What a command does. -/
inductive Task where
  | check (options : CheckOptions)
  | layers (options : ProjectOptions)
  | rules (options : ProjectOptions)
deriving DecidableEq, Repr

/-- How much is said. -/
inductive Verbosity where
  | quiet
  | standard
  | verbose
deriving DecidableEq, Repr

/-- The least weight of the notes that are shown. -/
def Verbosity.least : Verbosity → LogLevel
  | quiet => .error
  | standard => .warning
  | verbose => .debug

/-- What a command line asks for. -/
inductive Request where
  | version
  | help
  | task (verbosity : Verbosity) (quiet : Bool) (task : Task)
deriving DecidableEq, Repr

namespace Request

/-! ## Options -/

def helpForm : OptionForm := ⟨"help", none, false⟩

/-- The options before the name of the command. -/
def leadForms : List OptionForm :=
  [⟨"version", none, false⟩, ⟨"verbose", some 'v', false⟩, ⟨"quiet", some 'q', false⟩, helpForm]

/-- The options that say where a project lies. -/
def placeForms : List OptionForm := [⟨"project", none, true⟩, ⟨"config", none, true⟩, helpForm]

/-- The options of a check. -/
def checkForms : List OptionForm :=
  placeForms ++
    [⟨"format", none, true⟩, ⟨"output", some 'o', true⟩, ⟨"no-output", none, false⟩,
      ⟨"jobs", some 'j', true⟩, ⟨"strict", none, false⟩, ⟨"fail-on-warn", none, false⟩]

/-! ## Values -/

/-- A path that leads to a folder, or to a file. -/
def existing (d : Disk) (folder : Bool) (name path : String) : Except UsageFault String :=
  match d.entry path with
  | .ok e => if e.isFolder == folder then .ok (Path.spelled path) else .error (.badValue name path)
  | .error _ => .error (.badValue name path)

/-- A path that leads to no folder; it may lead nowhere. -/
def writable (d : Disk) (name path : String) : Except UsageFault String :=
  match d.entry path with
  | .ok (.folder _) => .error (.badValue name path)
  | _ => .ok (Path.spelled path)

/-- Where a project lies. -/
def readPlace (d : Disk) (a : Arguments) : Except UsageFault ProjectOptions := do
  let project? ← (a.value? "project").mapM (existing d true "--project")
  let config? ← (a.value? "config").mapM (existing d false "--config")
  return ⟨project?, config?⟩

/-- The number of jobs is a whole number that is at least one; it does not change what is found. -/
def checkJobs (a : Arguments) : Except UsageFault Unit :=
  match a.value? "jobs" with
  | none => .ok ()
  | some text =>
    match Text.readInteger? 10 text with
    | some n => if n < 1 then .error (.badValue "--jobs" text) else .ok ()
    | none => .error (.badValue "--jobs" text)

/-- The form in which results are shown, if one is asked for. -/
def readForm (a : Arguments) : Except UsageFault (Option ReportForm) :=
  (a.value? "format").mapM fun text =>
    match ReportForm.ofName? text with
    | some form => .ok form
    | none => .error (.badValue "--format" text)

/-- How a project is checked. -/
def readCheck (d : Disk) (a : Arguments) : Except UsageFault CheckOptions := do
  let files ← a.others.mapM (existing d false "FILES")
  let place ← readPlace d a
  let form? ← readForm a
  let output? ← (a.value? "output").mapM (writable d "--output")
  checkJobs a
  return ⟨place, files, form?, output?, !a.has "no-output", a.has "strict", a.has "fail-on-warn"⟩

/-- A command that takes options only. -/
def readPlaceOnly (d : Disk) (a : Arguments) : Except UsageFault ProjectOptions := do
  let place ← readPlace d a
  match a.others with
  | [] => return place
  | text :: _ => throw (.unexpected text)

/-! ## Commands -/

/-- The options of a command and how it is made from its arguments. -/
def command? (d : Disk) :
    String → Option (List OptionForm × (Arguments → Except UsageFault Task))
  | "check" => some (checkForms, fun a => (readCheck d a).map .check)
  | "layers" => some (placeForms, fun a => (readPlaceOnly d a).map .layers)
  | "rules" => some (placeForms, fun a => (readPlaceOnly d a).map .rules)
  | _ => none

/-- How much is said. -/
def verbosityOf (lead : Arguments) : Verbosity :=
  if lead.has "verbose" then .verbose
  else if lead.has "quiet" then .quiet
  else .standard

/-- The request for a command, given the options before its name. -/
def readTask (d : Disk) (lead : Arguments) (name : String) (args : List String) :
    Except UsageFault Request :=
  match command? d name with
  | none => .error (.unknownCommand name)
  | some (forms, make) => do
    let a ← OptionForm.read forms true args
    if a.has "help" then return .help
    else return .task (verbosityOf lead) (lead.has "quiet") (← make a)

/-- What a command line asks for. -/
def ofArguments (d : Disk) (args : List String) : Except UsageFault Request := do
  let lead ← OptionForm.read leadForms false args
  match lead.options.find? fun (name, _) => name == "version" || name == "help" with
  | some (name, _) => return if name == "version" then .version else .help
  | none =>
    match lead.others with
    | [] => throw .missingCommand
    | name :: rest => readTask d lead name rest

end Request

/-- What makes a request of the arguments of a command line. -/
class ArgumentReader where
  read : Disk → List String → Except UsageFault Request

/-- Arguments are read as options and commands. -/
instance Request.reader : ArgumentReader := ⟨Request.ofArguments⟩

end SliceLint
