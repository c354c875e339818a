import SliceLint.Rule.Basic
import SliceLint.Rule.FileKind
import SliceLint.Rule.TextEvidence

/-!
# Tests of utility functions

A utility module that exports a function has a test file beside it, and the test file declares a
test case.
-/

namespace SliceLint.FunctionTests

open Text

def info : RuleInfo where
  id := "require-pure-function-tests"
  description := "Require test files for utility functions in shared/utils/"
  severity := .warning
  messages := [
    ("missingTestFile",
      [.text "Missing test file for utility functions. Create ", .gap "testFile"]),
    ("noTestsFound", [.text "Test file exists but contains no test cases"])]
  severities := []

/-- The directories of utility functions unless configured otherwise. -/
def standardDirectories : List String := ["shared/utils"]

/-- A directory as it shows in the middle of a path. -/
def marker (directory : String) : String := "/" ++ trim '/' directory ++ "/"

/-- The file is a utility module, and no test. -/
def applies (markers : List String) (relPath : String) : Bool :=
  (markers.any fun m => contains ("/" ++ relPath) m) &&
    (Path.extension relPath == ".ts" || Path.extension relPath == ".js") &&
    !FileKind.isTest relPath

/-- The path has no name that another could replace. -/
inductive NameFault where
  | emptyName (path : String)
deriving DecidableEq, Repr

def NameFault.message : NameFault → String
  | emptyName path => "PosixPath('" ++ path ++ "') has an empty name"

/-- The paths at which the tests of a file may lie. -/
def candidates (path : String) : Except NameFault (String × String) :=
  if Path.name path == "" then .error (.emptyName (Path.spelled path))
  else
    let sibling (mark : String) : String :=
      Path.withName path (Path.stem path ++ mark ++ Path.suffix path)
    .ok (sibling ".spec", sibling ".test")

/-- The first of two paths that leads to a file. -/
def existing? (view : FileView) (paths : String × String) : Except Fault (Option String) := do
  if ← view.isFile paths.1 then return some paths.1
  if ← view.isFile paths.2 then return some paths.2
  return none

/-- The finding of a utility module whose tests may lie at the given paths. -/
def checkTests (view : FileView) (paths : String × String) : Except Fault (List Finding) := do
  match ← existing? view paths with
  | none =>
    let file := Path.name paths.1
    return [⟨"missingTestFile", .origin, "Create " ++ file, [("testFile", .text file)]⟩]
  | some path =>
    if TextEvidence.hasTestCase (← view.readText path) then return []
    else return [⟨"noTestsFound", .origin, "", [("testFile", .text (Path.name path))]⟩]

/-- The findings of a file. -/
def check (markers : List String) (ctx : FileContext) : Except Fault (List Finding) :=
  if !applies markers ctx.relPath || !TextEvidence.exportsFunction ctx.text then .ok []
  else
    match candidates ctx.path with
    | .ok paths => checkTests ctx.run.view paths
    | .error e => .error ⟨"ValueError", e.message⟩

/-- Utility modules without tests are reported. -/
def rule (directories : List String) : Rule where
  info := info
  kinds := ["program"]
  onNode := fun _ ctx s => (check (directories.map marker) ctx, s)
  onExit := Rule.silent
  onUnparsed? := none

end SliceLint.FunctionTests
