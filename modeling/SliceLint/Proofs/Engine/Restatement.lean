import SliceLint.Proofs.Project.Run

/-!
# Reports that are put otherwise

What the rules find does not depend on the severities that the engine gives to them. Two engines
with the same rules report the same findings in the same order under the same numbers, and where
they put a finding differently, they differ in that violation alone (`Engine.Restates`).
-/

namespace SliceLint

/-- The violation with a severity, if it is one of the named rule and does not tell of a failure. -/
def Violation.reweighed (id : String) (s : Severity) (v : Violation) : Violation :=
  if v.rule = id ∧ v.messageId ≠ failureId then { v with severity := s } else v

/-- What the first engine reports of a finding of its rules, the second reports after a change.
Reports on files without a tree are left as they are. -/
structure Engine.Restates (change : Violation → Violation) (e e' : Engine) : Prop where
  rules_eq : e'.rules = e.rules
  violation : ∀ r ∈ e.rules, ∀ relPath lines n f,
    e'.violation relPath lines n (r, f) = (e.violation relPath lines n (r, f)).map change
  lead : ∀ v : Violation, v.rule = parseRule → change v = v

theorem mem_rules_of_mem_findings {rules : List Rule} {ctx : FileContext} (tree? : Option Tree)
    {found : Rule × Finding} (h : found ∈ (traceFile rules ctx tree?).flatMap Call.findings) :
    found.1 ∈ rules := by
  obtain ⟨c, hc, hfound⟩ := List.mem_flatMap.1 h
  rw [Call.rule_of_mem_findings hfound]
  exact (genuine_of_mem_traceFile hc).1

namespace Engine

/-! ## The change of a run -/

namespace Restates

variable {change : Violation → Violation} {e e' : Engine}

theorem violations (h : Restates change e e') {found : List (Rule × Finding)}
    (hfound : ∀ x ∈ found, x.1 ∈ e.rules) (relPath : String) (lines : List String) (n : Nat) :
    e'.violations relPath lines n found =
      (e.violations relPath lines n found).map (List.map change) := by
  induction found generalizing n with
  | nil => rfl
  | cons x found ih =>
    obtain ⟨hx, hrest⟩ := List.forall_mem_cons.1 hfound
    rw [Engine.violations, Engine.violations, h.violation x.1 hx, ih hrest]
    cases e.violation relPath lines n x with
    | error f => rfl
    | ok v => cases e.violations relPath lines (n + 1) found <;> rfl

theorem reportParsed (h : Restates change e e') (ctx : FileContext) (d : Dialect) (tree : Tree) :
    e'.reportParsed ctx d tree =
      (e.reportParsed ctx d tree).map fun r => { r with violations := r.violations.map change } := by
  have hfound : ∀ x ∈ (traceOf e.rules ctx tree).flatMap Call.findings, x.1 ∈ e.rules :=
    fun _ => mem_rules_of_mem_findings (some tree)
  simp only [Engine.reportParsed, h.rules_eq, h.violations hfound]
  cases e.violations ctx.relPath ctx.lines 1 ((traceOf e.rules ctx tree).flatMap Call.findings) <;>
    rfl

theorem reportUnparsed (h : Restates change e e') (ctx : FileContext) {first : Violation}
    (hfirst : first.rule = parseRule) (note : String) :
    e'.reportUnparsed ctx first note =
      (e.reportUnparsed ctx first note).map fun r =>
        { r with violations := r.violations.map change } := by
  have hfound : ∀ x ∈ (traceUnparsed e.rules ctx).flatMap Call.findings, x.1 ∈ e.rules :=
    fun _ => mem_rules_of_mem_findings none
  simp only [Engine.reportUnparsed, h.rules_eq, h.violations hfound]
  cases e.violations ctx.relPath ctx.lines 2 ((traceUnparsed e.rules ctx).flatMap Call.findings) with
  | error f => rfl
  | ok vs => simp only [Except.map, List.map_cons, h.lead first hfirst]

theorem report [SourceReader] (h : Restates change e e') (path relPath : String) (run : RunContext)
    (text : Except Fault String) :
    e'.report path relPath run text =
      (e.report path relPath run text).map fun r =>
        { r with violations := r.violations.map change } := by
  rcases report_cases path relPath text with
    ⟨-, text', message, line, column, shown, note, hreport⟩ | ⟨text', d, tree, -, -, hreport⟩
  · rw [hreport e' run, hreport e run]
    exact h.reportUnparsed _ rfl note
  · rw [hreport e' run, hreport e run]
    exact h.reportParsed _ d tree

/-- **Restatement.** In every file the second engine finds what the first finds, after the
change. -/
theorem found [SourceReader] (h : Restates change e e') (read : String → Except Fault String)
    (run : RunContext) (file : String) :
    e'.found read run file = (e.found read run file).map change := by
  simp only [Engine.found, h.report]
  cases e.report (Path.below run.projectRoot file) file run
    (read (Path.below run.projectRoot file)) <;> rfl

end Restates

/-! ## Severities -/

variable {e e' : Engine} {r : Rule}

theorem wording_congr (h : ∀ messageId, e'.severityOf r messageId = e.severityOf r messageId)
    (f : Finding) : e'.wording r f = e.wording r f := by
  simp only [wording, h]

/-- Where one engine gives a severity to all messages of a rule, only failures keep theirs. -/
theorem wording_reweighed {s : Severity} (h : ∀ messageId, e'.severityOf r messageId = s)
    (f : Finding) :
    e'.wording r f = (e.wording r f).map fun said =>
      (if f.messageId = failureId then said.1 else s, said.2) := by
  unfold wording
  by_cases hfailure : f.messageId = failureId
  · simp only [hfailure, beq_self_eq_true, if_true]
    rfl
  · simp only [beq_eq_false_iff_ne.2 hfailure, hfailure, Bool.false_eq_true, if_false, h]
    cases r.info.messages.lookup f.messageId with
    | none => rfl
    | some template =>
      dsimp only
      cases template.fill f.data <;> rfl

theorem violation_reweighed {s : Severity} (h : ∀ messageId, e'.severityOf r messageId = s)
    (relPath : String) (lines : List String) (n : Nat) (f : Finding) :
    e'.violation relPath lines n (r, f) =
      (e.violation relPath lines n (r, f)).map (Violation.reweighed r.info.id s) := by
  rw [violation, violation, wording_reweighed h]
  cases e.wording r f with
  | error fault => rfl
  | ok said =>
    by_cases hfailure : f.messageId = failureId <;>
      simp [Except.map, Violation.reweighed, hfailure]

theorem restates_of_severityOf (hrules : e'.rules = e.rules)
    (h : ∀ r ∈ e.rules, ∀ messageId, e'.severityOf r messageId = e.severityOf r messageId) :
    Restates id e e' where
  rules_eq := hrules
  violation := by
    intro r hr relPath lines n f
    rw [violation, violation, wording_congr (h r hr)]
    cases e.wording r f <;> rfl
  lead := fun _ _ => rfl

/-- An engine that gives a severity to one rule reweighs the violations of this rule. -/
theorem restates_reweighed {id : String} {s : Severity} (hrules : e'.rules = e.rules)
    (hid : id ≠ parseRule)
    (h : ∀ r ∈ e.rules, ∀ messageId, e'.severityOf r messageId =
      if r.info.id = id then s else e.severityOf r messageId) :
    Restates (Violation.reweighed id s) e e' where
  rules_eq := hrules
  violation := by
    intro r hr relPath lines n f
    by_cases hrule : r.info.id = id
    · rw [← hrule]
      exact violation_reweighed (fun messageId => (h r hr messageId).trans (if_pos hrule))
        relPath lines n f
    · have hsame : ∀ messageId, e'.severityOf r messageId = e.severityOf r messageId :=
        fun messageId => (h r hr messageId).trans (if_neg hrule)
      rw [violation, violation, wording_congr hsame]
      cases e.wording r f with
      | error fault => rfl
      | ok said => simp [Except.map, Violation.reweighed, hrule]
  lead := by
    intro v hv
    rw [Violation.reweighed, if_neg]
    exact fun hrule => hid (hrule.1.symm.trans hv)

end Engine

end SliceLint
