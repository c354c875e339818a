import SliceLint.Report.Results

/-!
# Results as lists

**One line each** (`porcelain`). A line for each violation, its parts between colons.

**Grouped** (`rich`). The violations of each file below its path, with what is suggested, and the
totals at the end.
-/

namespace SliceLint

/-- The line of a violation, its parts between colons. -/
def Violation.listed (v : Violation) : String :=
  ":".intercalate
    [v.file, toString v.line, toString v.column, v.severity.name, v.rule, v.message]

/-- A text with blanks behind it, up to the given width. -/
def padded (width : Nat) (s : String) : String :=
  s ++ String.ofList (List.replicate (width - s.length) ' ')

/-- The entry of a violation below its file. -/
def Violation.entry (v : Violation) : String :=
  let mark := if v.severity == .error then "✗" else "!"
  "  " ++ toString v.line ++ ":" ++ toString v.column ++ "  " ++ mark ++ " " ++
    padded 7 v.severity.name ++ "  " ++ v.message ++ "  " ++ v.rule

/-- The entries of a violation: its own, and the one of its suggestion. -/
def Violation.entries (v : Violation) : List String :=
  v.entry :: if v.suggestion == "" then [] else ["      → " ++ v.suggestion]

/-- The entries of violations, each file named where it begins, with an empty entry between
files. -/
def groupedEntries (current : Option String) : List Violation → List String
  | [] => []
  | v :: vs =>
    let heading :=
      if current == some v.file then []
      else if current.isSome then ["", v.file]
      else [v.file]
    heading ++ v.entries ++ groupedEntries (some v.file) vs

namespace Results

/-- The last entry: the totals. -/
def totals (r : Results) : String :=
  let s := r.summary
  let scanned := toString r.filesScanned
  if s.total == 0 then
    "✓ No violations found (" ++ scanned ++ " files, " ++ s.executionTime ++ ")"
  else
    toString s.total ++ (if s.total == 1 then " problem (" else " problems (") ++
      toString s.errors ++ " errors, " ++ toString s.warnings ++ " warnings) in " ++ scanned ++
      " files, " ++ s.executionTime

/-- The entries of the grouped list. -/
def entries (r : Results) : List String :=
  let body := groupedEntries none r.violations
  body ++ (if r.summary.total == 0 || body.isEmpty then [] else [""]) ++ [r.totals]

/-- The violations grouped by file. -/
def rich (r : Results) : String := "\n".intercalate r.entries

/-- The violations, one line each. -/
def porcelain (r : Results) : String := "\n".intercalate (r.violations.map Violation.listed)

end Results

end SliceLint
