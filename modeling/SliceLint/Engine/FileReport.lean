import SliceLint.Engine.Verdict
import SliceLint.Source.Reading

/-!
# The report on one file

A file is read, parsed and handed to the rules. A file that cannot be read or parsed has one
violation that tells so, followed by those of the rules that need no tree.
-/

namespace SliceLint

/-- The violations of a file, and the notes made on the way. -/
structure FileReport where
  violations : List Violation
  log : List LogEntry

/-- The name under which files without a tree are reported. -/
def parseRule : String := "parse-error"

/-- The violation of a file without a tree. -/
def parseViolation (relPath message : String) (line column : Nat) (text : String) : Violation where
  id := Violation.idOf relPath 1
  rule := parseRule
  messageId := "parseError"
  severity := .error
  message := message
  file := relPath
  line := line
  column := column
  code := snippet (Text.lines text) line
  suggestion := ""
  description := "File could not be parsed; only path-based rules were applied to it."
  data := []

namespace Engine

/-- The report on a file with a tree. -/
def reportParsed (e : Engine) (ctx : FileContext) (d : Dialect) (tree : Tree) :
    Except WordingFault FileReport :=
  let calls := traceOf e.rules ctx tree
  let parsed : LogEntry :=
    ⟨.debug, LogEntry.sourceChannel, "Parsed " ++ ctx.relPath ++ " with " ++ d.name ++ " grammar"⟩
  (e.violations ctx.relPath ctx.lines 1 (calls.flatMap Call.findings)).map fun vs =>
    ⟨vs, parsed :: calls.flatMap (Call.notes ctx.relPath)⟩

/-- The report on a file without a tree, after the violation that tells so. -/
def reportUnparsed (e : Engine) (ctx : FileContext) (first : Violation) (note : String) :
    Except WordingFault FileReport :=
  let calls := traceUnparsed e.rules ctx
  (e.violations ctx.relPath ctx.lines 2 (calls.flatMap Call.findings)).map fun vs =>
    ⟨first :: vs,
      ⟨.warning, LogEntry.engineChannel, note⟩ :: calls.flatMap (Call.notes ctx.relPath)⟩

/-- The report on a file whose text, or the reason why there is none, is given. -/
def report [SourceReader] (e : Engine) (path relPath : String) (run : RunContext)
    (text : Except Fault String) :
    Except WordingFault FileReport :=
  let coordinate := Coordinate.ofPath? relPath run.sourceRoot
  match text with
  | .error f =>
    e.reportUnparsed ⟨path, relPath, "", coordinate, run⟩
      (parseViolation relPath ("Cannot read file: " ++ f.text) 1 1 "")
      ("Cannot read file: " ++ relPath)
  | .ok text =>
    let ctx : FileContext := ⟨path, relPath, text, coordinate, run⟩
    match readSource (Path.suffix path) text with
    | .error f =>
      e.reportUnparsed ctx (parseViolation relPath f.message f.line f.column text)
        ("Cannot parse " ++ relPath ++ ": " ++ f.message)
    | .ok (d, tree) => e.reportParsed ctx d tree

end Engine

end SliceLint
