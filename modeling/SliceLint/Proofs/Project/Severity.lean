import SliceLint.Proofs.Config.Reading
import SliceLint.Proofs.Engine.Isolation
import SliceLint.Proofs.Project.Run
import SliceLint.Proofs.Text.Order

/-!
# Severities and totals

**Severities** (`weighedBy_of_mem_found`). A violation that tells of a file without a tree is an
error, and one that tells of a rule that failed is a warning. All others have the severity that the
document gives to their rule, or else the one the rule comes with.

**Totals** (`results_agree`). Every violation is counted as an error or as a warning, and the rules
are listed as they come first.
-/

namespace SliceLint

/-! ## Severities of violations -/

namespace Engine

variable {e : Engine}

theorem Reports.severity_eq {relPath : String} {lines : List String} {found : Rule × Finding}
    {v : Violation} (h : e.Reports relPath lines found v) :
    v.severity = if v.messageId = failureId then .warning
      else e.severityOf found.1 v.messageId := by
  obtain ⟨r, f⟩ := found
  obtain ⟨n, said, hsaid, rfl⟩ := h.eq_numbered
  show said.1 = if f.messageId = failureId then .warning else e.severityOf r f.messageId
  unfold wording at hsaid
  split at hsaid
  · rename_i hid
    cases hsaid
    rw [if_pos (beq_iff_eq.1 hid)]
  · rename_i hid
    rw [if_neg fun heq => hid (beq_iff_eq.2 heq)]
    split at hsaid
    · cases hsaid
    · split at hsaid
      · cases hsaid
        rfl
      · cases hsaid

/-- Every violation of a file tells that it has no tree, or comes from a rule. -/
theorem severity_of_mem_found [SourceReader] (hrules : ∀ r ∈ e.rules, r.Declares)
    {read : String → Except Fault String} {run : RunContext} {file : String} {v : Violation}
    (hv : v ∈ e.found read run file) :
    v.Leads file ∨ ∃ r ∈ e.rules, v.rule = r.info.id ∧
      v.severity = if v.messageId = failureId then .warning else e.severityOf r v.messageId := by
  obtain ⟨lead, text, tree?, -, hlead, -, hfound⟩ := found_cases read run.projectRoot file
  obtain ⟨vs, hvs, hreports⟩ := hfound e run hrules rfl
  rw [hvs] at hv
  rcases List.mem_append.1 hv with hv | hv
  · exact Or.inl (hlead v hv)
  · obtain ⟨r, hr, f, hv⟩ :=
      exists_rule_of_mem_reports (fun _ => genuine_of_mem_traceFile) hreports hv
    exact Or.inr ⟨r, hr, hv.rule_eq, hv.severity_eq⟩

end Engine

/-! ## Severities of configured rules -/

namespace Config

theorem lookup_overrides (c : Config) (b : Builtin) :
    c.overrides.lookup b.id = (c.settings b).level?.bind Level.severity? := by
  have hmem : b ∈ Builtin.all := by cases b <;> decide
  exact lookup_filterMap (fun _ _ => Builtin.id_inj.1) (Or.inl hmem)

end Config

/-- A severity that the totals of a run count. -/
def Severity.IsCounted (s : Severity) : Prop := s = .error ∨ s = .warning

instance : DecidablePred Severity.IsCounted := fun s =>
  inferInstanceAs (Decidable (s = .error ∨ s = .warning))

theorem Level.isCounted {level : Level} {s : Severity} (h : level.severity? = some s) :
    s.IsCounted := by
  cases level with
  | error => exact Or.inl (Option.some.inj h).symm
  | warning => exact Or.inr (Option.some.inj h).symm
  | off => cases h

/-- The severities that a rule comes with are counted. -/
theorem ConfiguredRule.isCounted (r : ConfiguredRule) (messageId : String) :
    (r.rule.info.severityOf messageId).IsCounted := by
  have hnone : r.rule.info.severities = [] := by cases r <;> rfl
  have hseverity : r.rule.info.severity.IsCounted := by
    cases r <;> first | exact Or.inl rfl | exact Or.inr rfl
  rw [RuleInfo.severityOf, hnone]
  exact hseverity

/-! ## Severities by the document -/

/-- How the severity of a violation comes about in a run that a document configures. -/
inductive Violation.WeighedBy (v : Value) (x : Violation) : Prop
  | lead (file : String) (h : x.Leads file)
  | rule (r : ConfiguredRule) (b : Builtin) (hrule : x.rule = b.id)
      (hon : v.levelOf? b ≠ some .off)
      (hseverity : x.severity = if x.messageId = failureId then .warning
        else ((v.levelOf? b).bind Level.severity?).getD (r.rule.info.severityOf x.messageId))

namespace Violation.WeighedBy

variable {v : Value} {x : Violation} {b : Builtin}

theorem isCounted (h : x.WeighedBy v) : x.severity.IsCounted := by
  cases h with
  | lead file h => exact Or.inl h.severity_eq
  | rule r b hrule hon hseverity =>
    rw [hseverity]
    split_ifs with hid
    · exact Or.inr rfl
    · cases hs : (v.levelOf? b).bind Level.severity? with
      | none => exact r.isCounted x.messageId
      | some s =>
        obtain ⟨level, -, hlevel⟩ := Option.bind_eq_some_iff.1 hs
        exact Level.isCounted hlevel

theorem error_of_parseRule (h : x.WeighedBy v) (hparse : x.rule = parseRule) :
    x.severity = .error := by
  cases h with
  | lead file h => exact h.severity_eq
  | rule r b hrule hon hseverity => exact absurd (hrule.symm.trans hparse) b.id_ne_parseRule

theorem warning_of_failure (h : x.WeighedBy v) (hid : x.messageId = failureId) :
    x.severity = .warning := by
  cases h with
  | lead file h => exact absurd (h.messageId_eq.symm.trans hid) (by decide)
  | rule r b hrule hon hseverity => rw [hseverity, if_pos hid]

theorem severity_of_level (h : x.WeighedBy v) (hid : x.messageId ≠ failureId)
    (hb : x.rule = b.id) {level : Level} {s : Severity} (hlevel : v.levelOf? b = some level)
    (hs : level.severity? = some s) : x.severity = s := by
  cases h with
  | lead file h => exact absurd (hb.symm.trans h.rule_eq) b.id_ne_parseRule
  | rule r b' hrule hon hseverity =>
    obtain rfl := Builtin.id_inj.1 (hb.symm.trans hrule)
    rw [hseverity, if_neg hid, hlevel, Option.bind_some, hs, Option.getD_some]

theorem rule_ne_of_off (h : x.WeighedBy v) (hoff : v.levelOf? b = some .off) : x.rule ≠ b.id := by
  intro hb
  cases h with
  | lead file h => exact b.id_ne_parseRule (hb.symm.trans h.rule_eq)
  | rule r b' hrule hon hseverity =>
    obtain rfl := Builtin.id_inj.1 (hb.symm.trans hrule)
    exact hon hoff

end Violation.WeighedBy

/-- **Severities.** Every violation of configured rules has the severity that the document, the
failure or the missing tree gives it. -/
theorem weighedBy_of_mem_found [SourceReader] {v : Value} {c : Config} {e : Engine}
    (hc : Config.ofValue v = .ok c) (he : c.engine = .ok e) {read : String → Except Fault String}
    {run : RunContext} {file : String} {x : Violation} (hx : x ∈ e.found read run file) :
    x.WeighedBy v := by
  rcases Engine.severity_of_mem_found (Config.independent_engine he).declares hx with
    hlead | ⟨r, hr, hrule, hseverity⟩
  · exact .lead file hlead
  · obtain ⟨configured, b, rfl, hid, hoff⟩ := Config.exists_builtin_of_mem_engine he hr
    rw [Config.level?_settings hc b] at hoff
    refine .rule configured b (hrule.trans hid) hoff ?_
    rw [hseverity, Engine.severityOf, Config.overrides_of_engine he, hid, Config.lookup_overrides,
      Config.level?_settings hc b]

/-! ## Totals -/

theorem length_errors_add_warnings {vs : List Violation}
    (h : ∀ v ∈ vs, v.severity.IsCounted) :
    (vs.filter fun v => v.severity == .error).length +
      (vs.filter fun v => v.severity == .warning).length = vs.length := by
  induction vs with
  | nil => rfl
  | cons v vs ih =>
    obtain ⟨hv, hvs⟩ := List.forall_mem_cons.1 h
    have hrest := ih hvs
    rcases hv with hv | hv
    · have hwarning : (Severity.error == Severity.warning) = false := by decide
      simp only [List.filter_cons, hv, beq_self_eq_true, if_true, hwarning, List.length_cons,
        Bool.false_eq_true, if_false]
      omega
    · have herror : (Severity.warning == Severity.error) = false := by decide
      simp only [List.filter_cons, hv, beq_self_eq_true, if_true, herror, List.length_cons,
        Bool.false_eq_true, if_false]
      omega

/-- Results agree with a document in their severities, and with themselves in their totals. -/
structure Results.Agrees (v : Value) (r : Results) : Prop where
  counted : ∀ x ∈ r.violations, x.severity.IsCounted
  parseErrors : ∀ x ∈ r.violations, x.rule = parseRule → x.severity = .error
  failures : ∀ x ∈ r.violations, x.messageId = failureId → x.severity = .warning
  configured : ∀ x ∈ r.violations, x.messageId ≠ failureId → ∀ b : Builtin, x.rule = b.id →
    ∀ level s, v.levelOf? b = some level → level.severity? = some s → x.severity = s
  off : ∀ b : Builtin, v.levelOf? b = some .off → ∀ x ∈ r.violations, x.rule ≠ b.id
  total : r.summary.total = r.violations.length
  sum : r.summary.errors + r.summary.warnings = r.summary.total
  hasErrors : r.hasErrors = true ↔ ∃ x ∈ r.violations, x.severity = .error
  listed : ∀ id, id ∈ r.summary.rules ↔ ∃ x ∈ r.violations, x.rule = id
  distinct : r.summary.rules.Nodup
  ordered : r.summary.rules.Pairwise fun id id' =>
    (r.violations.map Violation.rule).idxOf id < (r.violations.map Violation.rule).idxOf id'

theorem agrees_of_analyzeFiles [SourceReader] {v : Value} {c : Config} {e : Engine}
    (hc : Config.ofValue v = .ok c) (he : c.engine = .ok e) {read : String → Except Fault String}
    {view : FileView} {root : String} {files : List String} {clock : Clock} {results : Results}
    (h : (analyzeFiles read view root c e files clock).value = .ok results) :
    results.Agrees v := by
  have hsummary : results.summary = .of results.violations clock.milliseconds clock.now :=
    congrArg Results.summary (results_of_analyzeFiles h)
  have hweighed : ∀ x ∈ results.violations, x.WeighedBy v := by
    obtain ⟨results', hresults, hviolations⟩ :=
      analyzeFiles_eq (Config.independent_engine he).declares read view root c files clock
    rw [h] at hresults
    cases hresults
    intro x hx
    rw [hviolations] at hx
    obtain ⟨file, -, hx⟩ := List.mem_flatMap.1 hx
    exact weighedBy_of_mem_found hc he hx
  exact {
    counted := fun x hx => (hweighed x hx).isCounted
    parseErrors := fun x hx => (hweighed x hx).error_of_parseRule
    failures := fun x hx => (hweighed x hx).warning_of_failure
    configured := fun x hx hid b hrule _ _ => (hweighed x hx).severity_of_level hid hrule
    off := fun b hoff x hx => (hweighed x hx).rule_ne_of_off hoff
    total := by rw [hsummary]; rfl
    sum := by
      rw [hsummary]
      exact length_errors_add_warnings fun x hx => (hweighed x hx).isCounted
    hasErrors := by
      rw [Results.hasErrors, hsummary, Summary.of, decide_eq_true_iff, gt_iff_lt,
        List.length_pos_iff_exists_mem]
      simp only [List.mem_filter, beq_iff_eq]
    listed := fun id => by rw [hsummary, Summary.of, Text.mem_distinct, List.mem_map]
    distinct := by
      rw [hsummary]
      exact Text.nodup_distinct _
    ordered := by
      rw [hsummary]
      exact Text.pairwise_distinct _ }

/-- **Totals.** Whatever is read and answered, the rules of a configuration lead to results that
agree with its document and with themselves, and so do the results of a run over a project. -/
theorem results_agree [SourceReader] {v : Value} {c : Config} (hc : Config.ofValue v = .ok c) :
    (∀ e, c.engine = .ok e → ∀ read view root files clock, ∃ results,
      (analyzeFiles read view root c e files clock).value = .ok results ∧ results.Agrees v) ∧
    ∀ d root scope clock results, (analyze d root c scope clock).value = .ok results →
      results.Agrees v := by
  constructor
  · intro e he read view root files clock
    obtain ⟨results, hresults, -⟩ :=
      analyzeFiles_eq (Config.independent_engine he).declares read view root c files clock
    exact ⟨results, hresults, agrees_of_analyzeFiles hc he hresults⟩
  · intro d root scope clock results h
    obtain ⟨e, files, he, -, hanalyzed⟩ := exists_of_analyze h
    exact agrees_of_analyzeFiles hc he hanalyzed

/-- A configuration that switches one rule off and makes another weigh less. -/
def Shop.lenient : Value :=
  .mapping [(.text "rules", .mapping
    [(.text "feature-slice-baseline", .bool false),
      (.text "enforce-fsd-layer-boundaries", .mapping [(.text "severity", .text "warn")])])]

/-- A forbidden import is no more than a warning, and the rule that is switched off reports nothing,
also where the disk answers nothing. -/
theorem results_agree_lenient :
    Shop.lenient.levelOf? .layerBoundary = some .warning ∧
    ∃ c e results, Config.ofValue Shop.lenient = .ok c ∧ c.engine = .ok e ∧
      (analyzeFiles Shop.pageImport Shop.mute "/shop" c e ["app/features/cart/list.ts"]
        ⟨default, default⟩).value = .ok results ∧
      results.violations.map (fun x => (x.rule, x.severity)) =
        [(Builtin.layerBoundary.id, .warning)] ∧
      results.Agrees Shop.lenient ∧
      ∀ x ∈ results.violations, x.rule ≠ Builtin.sliceBaseline.id := by
  have hoff : Shop.lenient.levelOf? .sliceBaseline = some .off := by decide +kernel
  obtain ⟨c, e, hc, he, hweighed⟩ : ∃ c e, Config.ofValue Shop.lenient = .ok c ∧ c.engine = .ok e ∧
      (analyzeFiles Shop.pageImport Shop.mute "/shop" c e ["app/features/cart/list.ts"]
        ⟨default, default⟩).value.map (fun r => r.violations.map fun x => (x.rule, x.severity)) =
          .ok [(Builtin.layerBoundary.id, .warning)] :=
    ⟨_, _, rfl, rfl, by decide +kernel⟩
  obtain ⟨results, hresults, hagrees⟩ := (results_agree hc).1 e he Shop.pageImport Shop.mute
    "/shop" ["app/features/cart/list.ts"] ⟨default, default⟩
  rw [hresults] at hweighed
  exact ⟨by decide +kernel, c, e, results, hc, he, hresults, Except.ok.inj hweighed, hagrees,
    hagrees.off _ hoff⟩

end SliceLint
