/-!
# Severities

How much a violation weighs. Errors and warnings are counted; any other word is carried along.
-/

namespace SliceLint

/-- The weight of a violation. -/
inductive Severity where
  | error
  | warning
  | other (word : String)
deriving DecidableEq, Repr, Inhabited

namespace Severity

def name : Severity → String
  | error => "error"
  | warning => "warning"
  | other word => word

def ofName (word : String) : Severity :=
  match word with
  | "error" => error
  | "warning" => warning
  | _ => other word

end Severity

end SliceLint
