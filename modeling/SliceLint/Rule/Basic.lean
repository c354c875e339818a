import SliceLint.Report.Template
import SliceLint.Rule.Context
import SliceLint.Source.Tree

/-!
# Rules

A rule subscribes to kinds of nodes. It is called at each such node, once more at the end of the
file, and, if it needs no tree, for a file that has none. A call gives findings or fails.

**Counters.** The rules of a run over one file share numbered counters, each under a key. A
counter that was never set stands at zero.
-/

namespace SliceLint

/-- What is known of a rule: its name, its default severities, and its messages. -/
structure RuleInfo where
  id : String
  description : String
  severity : Severity
  messages : List (String × Template)
  severities : List (String × Severity)

/-- The severity of a message where no setting overrides it. -/
def RuleInfo.severityOf (info : RuleInfo) (messageId : String) : Severity :=
  (info.severities.lookup messageId).getD info.severity

/-- What a rule reports: one of its messages, with a place and data. -/
structure Finding where
  messageId : String
  place : Position
  suggestion : String
  data : Data
deriving DecidableEq, Repr, Inhabited

/-! ## Counters -/

/-- Numbers kept under keys while a file is read. -/
structure Counters where
  entries : List (String × Nat)
deriving Repr, Inhabited

namespace Counters

def empty : Counters := ⟨[]⟩

/-- The number under a key. -/
def get (s : Counters) (key : String) : Nat := (s.entries.lookup key).getD 0

/-- Forget the number under a key. -/
def clear (s : Counters) (key : String) : Counters := ⟨s.entries.filter (·.1 != key)⟩

/-- Put a number under a key. -/
def set (s : Counters) (key : String) (n : Nat) : Counters := ⟨(key, n) :: (s.clear key).entries⟩

/-- Count one more under a key. -/
def increment (s : Counters) (key : String) : Counters := s.set key (s.get key + 1)

end Counters

/-! ## Rules -/

/-- What a call of a rule leads to; the counters are kept even when it fails. -/
abbrev Response := Except Fault (List Finding) × Counters

/-- A rule. -/
structure Rule where
  info : RuleInfo
  kinds : List String
  onNode : Visit → FileContext → Counters → Response
  onExit : FileContext → Counters → Response
  onUnparsed? : Option (FileContext → Counters → Response)

namespace Rule

/-- Answer without findings. -/
def silent (_ : FileContext) (s : Counters) : Response := (.ok [], s)

/-- The rule that looks at nodes and nothing else. -/
def ofNodes (info : RuleInfo) (kinds : List String) (look : Visit → FileContext → List Finding) :
    Rule :=
  ⟨info, kinds, fun v ctx s => (.ok (look v ctx), s), silent, none⟩

end Rule

end SliceLint
