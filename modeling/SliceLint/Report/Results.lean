import SliceLint.Document.Moment
import SliceLint.Number.DecimalText
import SliceLint.Report.Violation
import SliceLint.Text.Order

/-!
# Results of a run

The violations of a run with their totals: how many there are, how many of them are errors and how
many warnings, and which rules they come from, in the order of their first appearance. The time
that the run took is given in milliseconds, and from one second on in seconds.
-/

namespace SliceLint

/-- The totals of a run. -/
structure Summary where
  total : Nat
  errors : Nat
  warnings : Nat
  rules : List String
  executionTime : String
  timestamp : String
deriving DecidableEq, Repr

/-- What a run leads to. -/
structure Results where
  violations : List Violation
  summary : Summary
  filesScanned : Int
deriving DecidableEq, Repr

/-- A span of time given in milliseconds. -/
def durationText (milliseconds : Binary64) : String :=
  if milliseconds.isBelow 1000 then milliseconds.fixed 0 ++ "ms"
  else (milliseconds.scaleDown 1000).fixed 2 ++ "s"

/-- The totals of violations. -/
def Summary.of (violations : List Violation) (milliseconds : Binary64) (now : Moment) : Summary where
  total := violations.length
  errors := (violations.filter fun v => v.severity == .error).length
  warnings := (violations.filter fun v => v.severity == .warning).length
  rules := Text.distinct (violations.map Violation.rule)
  executionTime := durationText milliseconds
  timestamp := now.shown "T"

/-- The results of a run. -/
def Results.of (violations : List Violation) (filesScanned : Int) (milliseconds : Binary64)
    (now : Moment) : Results :=
  ⟨violations, .of violations milliseconds now, filesScanned⟩

/-- There is an error among the violations. -/
def Results.hasErrors (r : Results) : Bool := r.summary.errors > 0

end SliceLint
