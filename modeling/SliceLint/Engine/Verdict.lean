import SliceLint.Engine.Trace
import SliceLint.Log
import SliceLint.Rule.Snippet

/-!
# From calls to violations

The findings of all calls, in order, become the violations of a file, numbered from one. A call
that failed becomes a warning that tells so; this message belongs to every rule.

A finding whose message the rule does not declare, or whose data leave a gap in the message, is a
fault of the rule that stops the run.
-/

namespace SliceLint

/-- The message of a rule that failed. -/
def failureId : String := "internalError"

/-- Why a finding cannot be put into words. -/
inductive WordingFault where
  | undeclared (messageId : String)
  | missingDatum (name : String)
deriving DecidableEq, Repr

/-- What a failure is reported as. -/
def failureFinding (r : Rule) (o : Occasion) (f : Fault) : Finding :=
  let error := "Rule '" ++ r.info.id ++ "' failed: " ++ f.kind ++ ": " ++ f.text
  ⟨failureId, o.place, "", [("error", .text error)]⟩

/-- The findings of a call, with the rule that made them. -/
def Call.findings (c : Call) : List (Rule × Finding) :=
  match c.outcome with
  | .ok fs => fs.map fun f => (c.rule, f)
  | .error f => [(c.rule, failureFinding c.rule c.occasion f)]

/-- The note that a failed call leaves in the log. -/
def Call.notes (relPath : String) (c : Call) : List LogEntry :=
  match c.outcome with
  | .ok _ => []
  | .error f =>
    [⟨.warning, LogEntry.engineChannel,
      "Rule " ++ c.rule.info.id ++ " failed on " ++ relPath ++ ": " ++ f.text⟩]

/-- Rules with the severities that settings give them. -/
structure Engine where
  rules : List Rule
  overrides : List (String × Severity)

namespace Engine

/-- The severity of a message of a rule. -/
def severityOf (e : Engine) (r : Rule) (messageId : String) : Severity :=
  (e.overrides.lookup r.info.id).getD (r.info.severityOf messageId)

/-- The severity and the wording of a finding. -/
def wording (e : Engine) (r : Rule) (f : Finding) : Except WordingFault (Severity × String) :=
  if f.messageId == failureId then
    .ok (.warning, ((f.data.lookup "error").map Datum.shown).getD "internal error")
  else
    match r.info.messages.lookup f.messageId with
    | none => .error (.undeclared f.messageId)
    | some template =>
      match template.fill f.data with
      | .ok message => .ok (e.severityOf r f.messageId, message)
      | .error name => .error (.missingDatum name)

/-- The violation that a finding amounts to. -/
def violation (e : Engine) (relPath : String) (lines : List String) (number : Nat)
    (found : Rule × Finding) : Except WordingFault Violation :=
  let (r, f) := found
  (e.wording r f).map fun (severity, message) =>
    ⟨Violation.idOf relPath number, r.info.id, f.messageId, severity, message, relPath,
      f.place.row + 1, f.place.column + 1, snippet lines (f.place.row + 1), f.suggestion,
      r.info.description, f.data⟩

/-- The violations of findings, numbered on from a first number. -/
def violations (e : Engine) (relPath : String) (lines : List String) :
    Nat → List (Rule × Finding) → Except WordingFault (List Violation)
  | _, [] => .ok []
  | number, found :: rest => do
    let v ← e.violation relPath lines number found
    let vs ← e.violations relPath lines (number + 1) rest
    return v :: vs

end Engine

end SliceLint
