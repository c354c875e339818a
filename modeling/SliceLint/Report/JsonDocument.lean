import SliceLint.Report.Results
import SliceLint.Text.Quoted

/-!
# Results as JSON

The results of a run as a JSON document. The document is written over several lines, each level
indented by two more blanks; empty lists and objects stay on one line. Texts keep every character
but the quote, the backslash and the controls.
-/

namespace SliceLint

/-- A JSON document. -/
inductive JsonDocument where
  | number (n : Int)
  | text (s : String)
  | list (items : List JsonDocument)
  | object (fields : List (String × JsonDocument))
deriving Repr, Inhabited

namespace JsonDocument

/-- A character inside a JSON text. -/
def escaped (c : Char) : List Char :=
  if c == '"' || c == '\\' then ['\\', c]
  else if c == '\n' then ['\\', 'n']
  else if c == '\r' then ['\\', 'r']
  else if c == '\t' then ['\\', 't']
  else if c == '\x08' then ['\\', 'b']
  else if c == '\x0c' then ['\\', 'f']
  else if c.toNat < 32 then '\\' :: 'u' :: Text.hexDigits 4 c.toNat
  else [c]

/-- A text in double quotes. -/
def quoted (s : String) : List Char := '"' :: s.toList.flatMap escaped ++ ['"']

/-- A whole number with its sign. -/
def signed (n : Int) : List Char :=
  (if n < 0 then ['-'] else []) ++ Nat.toDigits 10 n.natAbs

/-- The start of a line, indented. -/
def lineStart (depth : Nat) : List Char := '\n' :: List.replicate (2 * depth) ' '

mutual

/-- The document as it is written, at some depth. -/
def written (depth : Nat) : JsonDocument → List Char
  | number n => signed n
  | text s => quoted s
  | list [] => ['[', ']']
  | list (item :: items) =>
    '[' :: lineStart (depth + 1) ++ written (depth + 1) item ++
      writtenItems (depth + 1) items ++ lineStart depth ++ [']']
  | object [] => ['\x7b', '\x7d']
  | object ((key, value) :: fields) =>
    '\x7b' :: lineStart (depth + 1) ++ quoted key ++ [':', ' '] ++ written (depth + 1) value ++
      writtenFields (depth + 1) fields ++ lineStart depth ++ ['\x7d']

/-- The items of a list behind the first. -/
def writtenItems (depth : Nat) : List JsonDocument → List Char
  | [] => []
  | item :: items =>
    ',' :: lineStart depth ++ written depth item ++ writtenItems depth items

/-- The fields of an object behind the first. -/
def writtenFields (depth : Nat) : List (String × JsonDocument) → List Char
  | [] => []
  | (key, value) :: fields =>
    ',' :: lineStart depth ++ quoted key ++ [':', ' '] ++ written depth value ++
      writtenFields depth fields

end

end JsonDocument

/-- A violation as a JSON object. -/
def Violation.document (v : Violation) : JsonDocument :=
  .object [
    ("id", .text v.id), ("rule", .text v.rule), ("severity", .text v.severity.name),
    ("message", .text v.message), ("file", .text v.file), ("line", .number v.line),
    ("column", .number v.column), ("code", .text v.code), ("suggestion", .text v.suggestion),
    ("description", .text v.description)]

/-- The totals as a JSON object. -/
def Summary.document (s : Summary) : JsonDocument :=
  .object [
    ("totalViolations", .number s.total), ("errors", .number s.errors),
    ("warnings", .number s.warnings), ("rules", .list (s.rules.map JsonDocument.text)),
    ("executionTime", .text s.executionTime), ("timestamp", .text s.timestamp)]

namespace Results

/-- The results as a JSON object. -/
def document (r : Results) : JsonDocument :=
  .object [
    ("violations", .list (r.violations.map Violation.document)), ("summary", r.summary.document)]

/-- The results as JSON text. -/
def json (r : Results) : String := String.ofList (r.document.written 0)

end Results

end SliceLint
