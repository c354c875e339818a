import SliceLint.Proofs.Engine.Isolation

/-!
# What a failure leads to

A rule that fails over a file is not called again there, and neither is any other rule of its name.

**Up to a failure** (`UpToFailure`). Of the calls that are due to the rules of one name, those are
made that come up to and with the first that fails. A run keeps this as long as the name has not
failed (`upToFailure_callsFrom`), and makes no call of the name afterwards
(`filter_callsFrom_of_failed`).

**Findings of a name** (`FailureTrace`). So the findings of a name are its own, then at most one
that reports a failure, and then nothing. A failure never stops the report on a file: only a
finding that a rule makes itself can lack its words.
-/

namespace SliceLint

/-! ## Calls one by one -/

/-- What a call carries out. -/
def Call.task (c : Call) : Rule × Occasion := (c.rule, c.occasion)

/-- The rule of the call did not fail. -/
def Call.Answered (c : Call) : Prop := ∃ fs, c.outcome = .ok fs

namespace Progress

/-- The calls that are made for tasks, in order, from some progress on. -/
def callsFrom (ctx : FileContext) : Progress → List (Rule × Occasion) → List Call
  | _, [] => []
  | p, task :: tasks =>
    if p.failed.contains task.1.info.id then callsFrom ctx p tasks
    else
      ⟨task.1, task.2, (task.1.respond task.2 ctx p.counters).1⟩ ::
        callsFrom ctx (p.call ctx task.1 task.2) tasks

theorem calls_foldl (ctx : FileContext) (p : Progress) (tasks : List (Rule × Occasion)) :
    (tasks.foldl (next ctx) p).calls = (callsFrom ctx p tasks).reverse ++ p.calls := by
  induction tasks generalizing p with
  | nil => rfl
  | cons task tasks ih =>
    rw [List.foldl_cons, ih, callsFrom, next]
    split
    · rfl
    · rw [calls_call, List.reverse_cons, List.append_assoc]
      rfl

end Progress

theorem traceOf_eq_callsFrom (rules : List Rule) (ctx : FileContext) (tree : Tree) :
    traceOf rules ctx tree = Progress.callsFrom ctx .start (schedule rules tree) := by
  rw [traceOf, Progress.calls_foldl, List.reverse_append, List.reverse_reverse]
  rfl

/-! ## Up to a failure -/

/-- The calls carry out the tasks in order, up to and with the first that fails. -/
inductive UpToFailure : List (Rule × Occasion) → List Call → Prop
  | done : UpToFailure [] []
  | fails (r : Rule) (o : Occasion) (f : Fault) (rest : List (Rule × Occasion)) :
    UpToFailure ((r, o) :: rest) [⟨r, o, .error f⟩]
  | answers (r : Rule) (o : Occasion) (fs : List Finding) {rest : List (Rule × Occasion)}
      {calls : List Call} (h : UpToFailure rest calls) :
    UpToFailure ((r, o) :: rest) (⟨r, o, .ok fs⟩ :: calls)

namespace UpToFailure

variable {tasks : List (Rule × Occasion)} {calls : List Call}

theorem head?_eq (h : UpToFailure tasks calls) : (calls.map Call.task).head? = tasks.head? := by
  cases h <;> rfl

/-- Either no call fails and nothing is left out, or the last call fails and no other does. -/
theorem answered_or_failed (h : UpToFailure tasks calls) :
    ((∀ c ∈ calls, c.Answered) ∧ calls.map Call.task = tasks) ∨
      ∃ before last fault, calls = before ++ [last] ∧ (∀ c ∈ before, c.Answered) ∧
        last.outcome = .error fault := by
  induction h with
  | done => exact Or.inl ⟨fun c hc => absurd hc List.not_mem_nil, rfl⟩
  | fails r o f rest =>
    exact Or.inr ⟨[], _, f, rfl, fun c hc => absurd hc List.not_mem_nil, rfl⟩
  | answers r o fs _ ih =>
    have hfirst : Call.Answered ⟨r, o, .ok fs⟩ := ⟨fs, rfl⟩
    rcases ih with ⟨hall, htasks⟩ | ⟨before, last, fault, rfl, hbefore, hlast⟩
    · refine Or.inl ⟨List.forall_mem_cons.2 ⟨hfirst, hall⟩, ?_⟩
      rw [List.map_cons, htasks]
      rfl
    · exact Or.inr ⟨_ :: before, last, fault, rfl, List.forall_mem_cons.2 ⟨hfirst, hbefore⟩, hlast⟩

end UpToFailure

namespace Progress

variable {ctx : FileContext} {id : String}

theorem filter_callsFrom_of_failed {tasks : List (Rule × Occasion)} {p : Progress}
    (h : id ∈ p.failed) : (callsFrom ctx p tasks).filter (fun c => c.rule.info.id == id) = [] := by
  induction tasks generalizing p with
  | nil => rfl
  | cons task tasks ih =>
    rw [callsFrom]
    split
    · exact ih h
    · rename_i hfailed
      have hne : ¬(task.1.info.id == id) = true := by
        intro heq
        rw [eq_of_beq heq] at hfailed
        exact hfailed (List.contains_iff_mem.2 h)
      rw [List.filter_cons, if_neg hne]
      exact ih ((mem_failed_call ctx p _ _ id).2 (Or.inl h))

theorem upToFailure_callsFrom {tasks : List (Rule × Occasion)} {p : Progress} (h : id ∉ p.failed) :
    UpToFailure (tasks.filter fun task => task.1.info.id == id)
      ((callsFrom ctx p tasks).filter fun c => c.rule.info.id == id) := by
  induction tasks generalizing p with
  | nil => exact .done
  | cons task tasks ih =>
    obtain ⟨r, o⟩ := task
    have hcall := mem_failed_call ctx p r o id
    by_cases hid : r.info.id = id
    · subst hid
      have hnot : ¬p.failed.contains r.info.id = true := by rwa [List.contains_iff_mem]
      rw [callsFrom, if_neg hnot, List.filter_cons, if_pos (beq_self_eq_true _), List.filter_cons,
        if_pos (beq_self_eq_true _)]
      cases hanswer : (r.respond o ctx p.counters).1 with
      | ok fs =>
        refine .answers r o fs (ih fun hfailed => ?_)
        rcases hcall.1 hfailed with hbefore | ⟨-, f, hf⟩
        · exact h hbefore
        · rw [hanswer] at hf
          cases hf
      | error f =>
        rw [filter_callsFrom_of_failed (hcall.2 (Or.inr ⟨rfl, f, hanswer⟩))]
        exact .fails r o f _
    · have hother : ¬(r.info.id == id) = true := fun heq => hid (eq_of_beq heq)
      rw [callsFrom, List.filter_cons, if_neg hother]
      split
      · exact ih h
      · rw [List.filter_cons, if_neg hother]
        exact ih fun hfailed => (hcall.1 hfailed).elim h fun herror => hid herror.1.symm

end Progress

/-- In the trace of a file the rules of one name do what is due to them up to their first
failure. -/
theorem upToFailure_traceOf (rules : List Rule) (ctx : FileContext) (tree : Tree) (id : String) :
    UpToFailure ((schedule rules tree).filter fun task => task.1.info.id == id)
      ((traceOf rules ctx tree).filter fun c => c.rule.info.id == id) := by
  rw [traceOf_eq_callsFrom]
  exact Progress.upToFailure_callsFrom List.not_mem_nil

/-! ## Findings -/

/-- No finding that the rule makes itself bears the message of a failure. -/
def Rule.AvoidsFailureId (r : Rule) : Prop :=
  ∀ o ctx s fs, (r.respond o ctx s).1 = .ok fs → ∀ f ∈ fs, f.messageId ≠ failureId

theorem Rule.Declares.avoidsFailureId {r : Rule} (h : r.Declares)
    (hnone : r.info.messages.lookup failureId = none) : r.AvoidsFailureId := by
  intro o ctx s fs hfs f hf hid
  obtain ⟨template, htemplate, -⟩ := h o ctx s fs hfs f hf
  rw [hid, hnone] at htemplate
  cases htemplate

theorem ConfiguredRule.avoidsFailureId (r : ConfiguredRule) : r.rule.AvoidsFailureId := by
  refine r.declares.avoidsFailureId ?_
  cases r <;> rfl

theorem Call.findings_of_ok {c : Call} {fs : List Finding} (h : c.outcome = .ok fs) :
    c.findings = fs.map fun f => (c.rule, f) := by
  rw [findings, h]

theorem Call.findings_of_error {c : Call} {fault : Fault} (h : c.outcome = .error fault) :
    c.findings = [(c.rule, failureFinding c.rule c.occasion fault)] := by
  rw [findings, h]

/-- The findings of a call that did not fail are those of its rule. -/
theorem Call.Genuine.ne_failureId {rules : List Rule} {ctx : FileContext} {c : Call}
    (hrules : ∀ r ∈ rules, r.AvoidsFailureId) (hc : c.Genuine rules ctx) (hok : c.Answered) :
    ∀ x ∈ c.findings, x.2.messageId ≠ failureId := by
  obtain ⟨hrule, s, hs⟩ := hc
  obtain ⟨fs, hfs⟩ := hok
  intro x hx
  rw [findings_of_ok hfs] at hx
  obtain ⟨f, hf, rfl⟩ := List.mem_map.1 hx
  exact hrules c.rule hrule c.occasion ctx s fs (hs.symm.trans hfs) f hf

namespace Engine

variable {e : Engine} {relPath : String} {lines : List String}

/-- Findings that are not all reported have one without words among them. -/
theorem exists_of_violations_error {found : List (Rule × Finding)} {n : Nat} {w : WordingFault}
    (h : e.violations relPath lines n found = .error w) :
    ∃ x ∈ found, e.wording x.1 x.2 = .error w := by
  induction found generalizing n with
  | nil => cases h
  | cons x found ih =>
    rw [violations] at h
    cases hv : e.violation relPath lines n x with
    | error w' =>
      rw [hv] at h
      cases h
      exact ⟨x, List.mem_cons_self, map_eq_error hv⟩
    | ok v =>
      rw [hv] at h
      cases hvs : e.violations relPath lines (n + 1) found with
      | error w' =>
        rw [hvs] at h
        cases h
        obtain ⟨y, hy, hw⟩ := ih hvs
        exact ⟨y, List.mem_cons_of_mem _ hy, hw⟩
      | ok vs =>
        rw [hvs] at h
        cases h

end Engine

/-! ## The rules of one name -/

section Named

variable (rules : List Rule) (ctx : FileContext) (tree : Tree) (id : String)

/-- What is due over a file to the rules of one name. -/
def dueTo : List (Rule × Occasion) :=
  (schedule rules tree).filter fun task => task.1.info.id == id

/-- The calls made over a file of the rules of one name. -/
def callsOf : List Call := (traceOf rules ctx tree).filter fun c => c.rule.info.id == id

/-- What is found over a file under one name. -/
def findingsOf : List (Rule × Finding) :=
  ((traceOf rules ctx tree).flatMap Call.findings).filter fun x => x.1.info.id == id

theorem findingsOf_eq : findingsOf rules ctx tree id =
    (callsOf rules ctx tree id).flatMap Call.findings :=
  findings_filter (· == id) _

end Named

variable {rules : List Rule} {ctx : FileContext} {tree : Tree} {id : String}

theorem ne_failureId_of_answered (hrules : ∀ r ∈ rules, r.AvoidsFailureId) {calls : List Call}
    (hcalls : ∀ c ∈ calls, c ∈ callsOf rules ctx tree id) (hok : ∀ c ∈ calls, c.Answered) :
    ∀ x ∈ calls.flatMap Call.findings, x.2.messageId ≠ failureId := by
  intro x hx
  obtain ⟨c, hc, hx⟩ := List.mem_flatMap.1 hx
  have hgenuine := genuine_of_mem_traceOf (List.mem_filter.1 (hcalls c hc)).1
  exact hgenuine.ne_failureId hrules (hok c hc) x hx

theorem exists_call_of_failureId (hrules : ∀ r ∈ rules, r.AvoidsFailureId) {x : Rule × Finding}
    (hx : x ∈ findingsOf rules ctx tree id) (hid : x.2.messageId = failureId) :
    ∃ c ∈ callsOf rules ctx tree id, ∃ fault, c.outcome = .error fault ∧
      x = (c.rule, failureFinding c.rule c.occasion fault) := by
  rw [findingsOf_eq] at hx
  obtain ⟨c, hc, hx⟩ := List.mem_flatMap.1 hx
  cases ho : c.outcome with
  | ok fs =>
    have hgenuine := genuine_of_mem_traceOf (List.mem_filter.1 hc).1
    exact absurd hid (hgenuine.ne_failureId hrules ⟨fs, ho⟩ x hx)
  | error fault =>
    rw [Call.findings_of_error ho] at hx
    exact ⟨c, hc, fault, ho, List.mem_singleton.1 hx⟩

theorem failureId_of_call {c : Call} (hc : c ∈ callsOf rules ctx tree id) {fault : Fault}
    (ho : c.outcome = .error fault) :
    ∃ x ∈ findingsOf rules ctx tree id, x.2.messageId = failureId := by
  refine ⟨(c.rule, failureFinding c.rule c.occasion fault), ?_, rfl⟩
  rw [findingsOf_eq, List.mem_flatMap]
  refine ⟨c, hc, ?_⟩
  rw [Call.findings_of_error ho]
  exact List.mem_singleton_self _

/-- The findings under a name end with the one that reports a failure. -/
theorem findingsOf_cases (hrules : ∀ r ∈ rules, r.AvoidsFailureId) :
    ∃ own, (∀ x ∈ own, x.2.messageId ≠ failureId) ∧
      ((∀ c ∈ callsOf rules ctx tree id, c.Answered) ∧ findingsOf rules ctx tree id = own ∨
        ∃ before last fault, callsOf rules ctx tree id = before ++ [last] ∧
          last.outcome = .error fault ∧
          findingsOf rules ctx tree id =
            own ++ [(last.rule, failureFinding last.rule last.occasion fault)]) := by
  have hrun : UpToFailure (dueTo rules tree id) (callsOf rules ctx tree id) :=
    upToFailure_traceOf rules ctx tree id
  rw [findingsOf_eq]
  rcases hrun.answered_or_failed with ⟨hok, -⟩ | ⟨before, last, fault, hcalls, hok, ho⟩
  · exact ⟨_, ne_failureId_of_answered hrules (fun c hc => hc) hok, Or.inl ⟨hok, rfl⟩⟩
  · have hbefore : ∀ c ∈ before, c ∈ callsOf rules ctx tree id := by
      intro c hc
      rw [hcalls]
      exact List.mem_append_left _ hc
    refine ⟨before.flatMap Call.findings, ne_failureId_of_answered hrules hbefore hok,
      Or.inr ⟨before, last, fault, hcalls, ho, ?_⟩⟩
    rw [hcalls, List.flatMap_append, List.flatMap_singleton, Call.findings_of_error ho]

/-! ## Reports -/

/-- The violation reports that the call failed so. -/
structure Violation.ReportsFailure (v : Violation) (c : Call) (fault : Fault) : Prop where
  severity : v.severity = .warning
  message : v.message =
    "Rule '" ++ c.rule.info.id ++ "' failed: " ++ fault.kind ++ ": " ++ fault.text
  atNode : ∀ visit, c.occasion = .node visit →
    v.line = visit.node.start.row + 1 ∧ v.column = visit.node.start.column + 1
  atExit : c.occasion = .exit → v.line = 1 ∧ v.column = 1

theorem Engine.Reports.reportsFailure {e : Engine} {relPath : String} {lines : List String}
    {v : Violation} {c : Call} {fault : Fault}
    (h : e.Reports relPath lines (c.rule, failureFinding c.rule c.occasion fault) v) :
    v.ReportsFailure c fault := by
  obtain ⟨n, said, hsaid, rfl⟩ := h.eq_numbered
  cases hsaid
  refine ⟨rfl, rfl, fun visit hvisit => ?_, fun hexit => ?_⟩
  · rw [hvisit]
    exact ⟨rfl, rfl⟩
  · rw [hexit]
    exact ⟨rfl, rfl⟩

/-- What the rules of one name do over a file, and how it is reported. -/
structure FailureTrace (e : Engine) (ctx : FileContext) (tree : Tree) (id : String) : Prop where
  /-- The calls are those due, up to and with the first that fails. -/
  calls : UpToFailure (dueTo e.rules tree id) (callsOf e.rules ctx tree id)
  /-- No name has failed when a file begins. -/
  starts : ((callsOf e.rules ctx tree id).map Call.task).head? = (dueTo e.rules tree id).head?
  /-- The findings are ordinary, but for a last one that reports the failure of the last call. -/
  findings : ∃ own, (∀ x ∈ own, x.2.messageId ≠ failureId) ∧
    ((∀ c ∈ callsOf e.rules ctx tree id, c.Answered) ∧ findingsOf e.rules ctx tree id = own ∨
      ∃ before last fault, callsOf e.rules ctx tree id = before ++ [last] ∧
        last.outcome = .error fault ∧
        findingsOf e.rules ctx tree id =
          own ++ [(last.rule, failureFinding last.rule last.occasion fault)])
  /-- A failure is reported exactly when a call failed. -/
  reported_iff : (∃ x ∈ findingsOf e.rules ctx tree id, x.2.messageId = failureId) ↔
    ∃ c ∈ callsOf e.rules ctx tree id, ∃ fault, c.outcome = .error fault
  /-- What stops the report on a file is a finding that a rule made itself. -/
  stopped : ∀ d w, e.reportParsed ctx d tree = .error w →
    ∃ c ∈ traceOf e.rules ctx tree, c.Answered ∧ ∃ x ∈ c.findings, e.wording x.1 x.2 = .error w
  /-- The violations under the name are its findings in order. -/
  ordered : ∀ d report, e.reportParsed ctx d tree = .ok report →
    (report.violations.filter fun v => v.rule == id).map Violation.messageId =
      (findingsOf e.rules ctx tree id).map fun x => x.2.messageId
  /-- A violation with the message of a failure reports a call that failed. -/
  said : ∀ d report, e.reportParsed ctx d tree = .ok report →
    ∀ v ∈ report.violations, v.rule = id → v.messageId = failureId →
      ∃ c ∈ callsOf e.rules ctx tree id, ∃ fault, c.outcome = .error fault ∧
        v.ReportsFailure c fault

namespace Engine

variable {e : Engine} {d : Dialect}

theorem forall₂_of_reportParsed {report : FileReport} (h : e.reportParsed ctx d tree = .ok report) :
    List.Forall₂ (e.Reports ctx.relPath ctx.lines)
      ((traceOf e.rules ctx tree).flatMap Call.findings) report.violations := by
  obtain ⟨vs, hvs, rfl⟩ := map_eq_ok h
  exact forall₂_reports hvs

/-- A report is not stopped by a call that failed. -/
theorem exists_of_reportParsed_error {w : WordingFault}
    (h : e.reportParsed ctx d tree = .error w) :
    ∃ c ∈ traceOf e.rules ctx tree, c.Answered ∧
      ∃ x ∈ c.findings, e.wording x.1 x.2 = .error w := by
  obtain ⟨x, hx, hw⟩ := exists_of_violations_error (map_eq_error h)
  obtain ⟨c, hc, hx⟩ := List.mem_flatMap.1 hx
  refine ⟨c, hc, ?_, x, hx, hw⟩
  cases ho : c.outcome with
  | ok fs => exact ⟨fs, ho⟩
  | error fault =>
    rw [Call.findings_of_error ho] at hx
    rw [List.mem_singleton.1 hx] at hw
    cases hw

end Engine

/-- **Failure trace.** Over a file with a tree, whichever calls fail, the rules of each name do what
is due to them up to their first failure. What is found under the name is ordinary up to one last
finding, which is there exactly when a call failed, and is reported as a warning at the node of
that call or, for a call at the end of the file, at its first place. -/
theorem failure_trace {e : Engine} (hrules : ∀ r ∈ e.rules, r.AvoidsFailureId) (ctx : FileContext)
    (tree : Tree) (id : String) : FailureTrace e ctx tree id where
  calls := upToFailure_traceOf e.rules ctx tree id
  starts := (upToFailure_traceOf e.rules ctx tree id).head?_eq
  findings := findingsOf_cases hrules
  reported_iff := by
    constructor
    · rintro ⟨x, hx, hid⟩
      obtain ⟨c, hc, fault, ho, -⟩ := exists_call_of_failureId hrules hx hid
      exact ⟨c, hc, fault, ho⟩
    · rintro ⟨c, hc, fault, ho⟩
      exact failureId_of_call hc ho
  stopped := fun d w => Engine.exists_of_reportParsed_error
  ordered := by
    intro d report hreport
    have hpicked := Engine.reports_filter (p := fun x => x.1.info.id == id)
      (q := fun v => v.rule == id) (fun hreports => by rw [hreports.rule_eq])
      (Engine.forall₂_of_reportParsed hreport)
    exact map_eq_of_forall₂ hpicked fun x v hreports => hreports.messageId_eq
  said := by
    intro d report hreport v hv hrule hid
    obtain ⟨x, hx, hreports⟩ := exists_of_mem_forall₂ (Engine.forall₂_of_reportParsed hreport) hv
    have hfound : x ∈ findingsOf e.rules ctx tree id :=
      List.mem_filter.2 ⟨hx, beq_iff_eq.2 (hreports.rule_eq.symm.trans hrule)⟩
    obtain ⟨c, hc, fault, ho, rfl⟩ :=
      exists_call_of_failureId hrules hfound (hreports.messageId_eq.symm.trans hid)
    exact ⟨c, hc, fault, ho, hreports.reportsFailure⟩

/-- On a disk that answers nothing the rule on slices fails at the root of a file, and is not called
at its end. -/
theorem failure_trace_mute :
    (∀ r ∈ Shop.engine.rules, r.AvoidsFailureId) ∧
      FailureTrace Shop.engine Shop.cartFile Shop.twoDefaults Builtin.sliceBaseline.id ∧
      (dueTo Shop.engine.rules Shop.twoDefaults Builtin.sliceBaseline.id).length = 2 ∧
      (callsOf Shop.engine.rules Shop.cartFile Shop.twoDefaults Builtin.sliceBaseline.id).map
        (fun c => c.outcome.toOption.isSome) = [false] := by
  have hrules : ∀ r ∈ Shop.engine.rules, r.AvoidsFailureId := by
    intro r hr
    obtain ⟨b, -, rfl⟩ := List.mem_map.1 hr
    have hstandard : b.standard = (ConfiguredRule.standard b).rule := by cases b <;> rfl
    rw [hstandard]
    exact ConfiguredRule.avoidsFailureId _
  exact ⟨hrules, failure_trace hrules Shop.cartFile Shop.twoDefaults Builtin.sliceBaseline.id,
    by decide +kernel, by decide +kernel⟩

end SliceLint
