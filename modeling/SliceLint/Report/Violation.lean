import SliceLint.Report.Severity

/-!
# Violations

A violation is one report of a run: which rule speaks, how much it weighs, where it points, and
the data its message was made from.
-/

namespace SliceLint

/-- A piece of data that a message names. -/
inductive Datum where
  | text (s : String)
  | number (n : Nat)
deriving DecidableEq, Repr, Inhabited

/-- The form in which a message shows a datum. -/
def Datum.shown : Datum → String
  | text s => s
  | number n => toString n

/-- Named data, in the order given. -/
abbrev Data := List (String × Datum)

/-- One report of a run. -/
structure Violation where
  id : String
  rule : String
  messageId : String
  severity : Severity
  message : String
  file : String
  line : Int
  column : Int
  code : String
  suggestion : String
  description : String
  data : Data
deriving DecidableEq, Repr, Inhabited

/-- The identifier of the violation with the given number in a file. -/
def Violation.idOf (file : String) (number : Nat) : String := file ++ "#" ++ toString number

end SliceLint
