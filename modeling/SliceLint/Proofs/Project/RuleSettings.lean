import SliceLint.Proofs.Config.Settings
import SliceLint.Proofs.Engine.Restatement
import SliceLint.Proofs.Project.Severity

/-!
# What the settings of a rule do to a run

**Off** (`Engine.forall₂_found_picked`). A rule that is switched off takes its violations along.
Those of the other rules stay, in their order and up to their numbers.

**Errors and warnings** (`Engine.restates_reweighed`). A level that is given to a rule changes the
severity of its violations and nothing else. Violations that tell of its failure stay warnings.

**Order** (`analyze_eq_of_settings`). A run depends on the settings of each rule and not on the
order in which they are written.

Main result: `rule_settings_effect`, about documents that are changed in their section on rules.
-/

namespace SliceLint

/-! ## Ends of two runs -/

/-- Two runs end alike: with violations that stand in a relation, or for the same reason. -/
def EndAlike {ε : Type} (R : List Violation → List Violation → Prop) :
    Except ε Results → Except ε Results → Prop
  | .ok r, .ok r' => R r.violations r'.violations
  | .error f, .error f' => f = f'
  | _, _ => False

theorem EndAlike.mapError {ε ε' : Type} {R : List Violation → List Violation → Prop}
    {x y : Except ε Results} (h : EndAlike R x y) (f : ε → ε') :
    EndAlike R (x.mapError f) (y.mapError f) := by
  cases x with
  | error fault =>
    cases y with
    | error fault' => exact congrArg f h
    | ok r' => exact h.elim
  | ok r =>
    cases y with
    | error fault' => exact h.elim
    | ok r' => exact h

/-- The runs of one configuration relate to those of another. Both have rules, whatever is read and
answered to these leads to related violations, and so does every run over a project. -/
structure Config.RunsRelate [SourceReader] (R : List Violation → List Violation → Prop)
    (c c' : Config) : Prop where
  files : ∃ e e', c.engine = .ok e ∧ c'.engine = .ok e' ∧ ∀ read view root files clock,
    EndAlike R (analyzeFiles read view root c e files clock).value
      (analyzeFiles read view root c' e' files clock).value
  project : ∀ d root scope clock,
    EndAlike R (analyze d root c scope clock).value (analyze d root c' scope clock).value

/-- Runs relate when what is found in each file does. -/
theorem Config.runsRelate_of_found [SourceReader] {R : List Violation → List Violation → Prop}
    (hR : ∀ (files : List String) (f g : String → List Violation),
      (∀ file, R (f file) (g file)) → R (files.flatMap f) (files.flatMap g))
    {c : Config} {rules : List (Builtin × RuleSettings)} {e e' : Engine} (he : c.engine = .ok e)
    (he' : { c with rules := rules }.engine = .ok e')
    (hfound : ∀ read run file, R (e.found read run file) (e'.found read run file)) :
    c.RunsRelate R { c with rules := rules } := by
  have hfiles : ∀ read view root files clock,
      EndAlike R (analyzeFiles read view root c e files clock).value
        (analyzeFiles read view root { c with rules := rules } e' files clock).value := by
    intro read view root files clock
    obtain ⟨results, hresults, hviolations⟩ :=
      analyzeFiles_eq (independent_engine he).declares read view root c files clock
    obtain ⟨results', hresults', hviolations'⟩ :=
      analyzeFiles_eq (independent_engine he').declares read view root { c with rules := rules }
        files clock
    rw [hresults, hresults']
    show R results.violations results'.violations
    rw [hviolations, hviolations']
    exact hR _ _ _ fun file => hfound read _ file
  refine ⟨⟨e, e', he, he', hfiles⟩, fun d root scope clock => ?_⟩
  have hscope : scope.files d root { c with rules := rules } = scope.files d root c := by
    cases scope <;> rfl
  unfold analyze
  simp only [he, he', hscope]
  cases (scope.files d root c).value with
  | error f => rfl
  | ok files => exact (hfiles d.readText d.view root files clock).mapError RunFault.wording

/-! ## Rules that are left out -/

/-- An engine without some of its rules finds what the others find in the engine with them. -/
theorem Engine.forall₂_found_picked [SourceReader] {own : String → Set String} {e : Engine}
    (h : Independent own e.rules) (pick : String → Bool) (hparse : pick parseRule = true)
    (read : String → Except Fault String) (run : RunContext) (file : String) :
    List.Forall₂ Violation.SameButNumber
      ((e.found read run file).filter fun v => pick v.rule)
      ({ e with rules := e.rules.filter fun r => pick r.info.id }.found read run file) := by
  obtain ⟨lead, text, tree?, -, hlead, -, hfound⟩ := found_cases read run.projectRoot file
  obtain ⟨vs, hall, hvs⟩ := hfound e run h.declares rfl
  obtain ⟨ws, hfew, hws⟩ := hfound { e with rules := e.rules.filter fun r => pick r.info.id } run
    (fun r hr => h.declares r (List.mem_filter.1 hr).1) rfl
  have hpicked := reports_picked pick hvs
  rw [traceFile_filter h pick] at hpicked
  have hleads : lead.filter (fun v => pick v.rule) = lead := by
    rw [List.filter_eq_self]
    intro v hv
    rw [(hlead v hv).rule_eq, hparse]
  rw [hall, hfew, List.filter_append, hleads]
  exact List.rel_append (List.forall₂_same.2 fun v hv => (hlead v hv).same)
    (forall₂_sameButNumber hpicked hws)

/-! ## Configurations with other settings -/

namespace Config

variable {c : Config} {e : Engine} {b : Builtin} {settings : RuleSettings}

theorem settings_putEntry (c : Config) (b b' : Builtin) (settings : RuleSettings) :
    { c with rules := putEntry c.rules b settings }.settings b' =
      if b' = b then settings else c.settings b' := by
  rw [Config.settings, lookup_putEntry]
  by_cases hb : b' = b
  · rw [if_pos (beq_iff_eq.2 hb), if_pos hb, Option.getD_some]
  · rw [if_neg (mt beq_iff_eq.1 hb), if_neg hb, Config.settings]

theorem enabledRules_of_off {rules : List ConfiguredRule} (h : c.enabledRules = .ok rules)
    (hoff : settings.level? = some .off) :
    { c with rules := putEntry c.rules b settings }.enabledRules =
      .ok (rules.filter fun r => r.builtin != b) := by
  have hall : (Builtin.all.filter fun b' =>
      ({ c with rules := putEntry c.rules b settings }.settings b').enabled) =
      (Builtin.all.filter fun b' => (c.settings b').enabled).filter (· != b) := by
    rw [List.filter_filter]
    refine List.filter_congr fun b' _ => ?_
    rw [settings_putEntry]
    by_cases hb : b' = b
    · simp [hb, RuleSettings.enabled, hoff]
    · simp [hb]
  rw [enabledRules, hall, mapM_eq_ok_iff]
  refine forall₂_filter (mapM_eq_ok_iff.1 h) (fun b' r hr => ?_) fun b' r hr hb => ?_
  · rw [ConfiguredRule.builtin_of_ofOptions hr]
  · rw [settings_putEntry, if_neg (bne_iff_ne.1 hb)]
    exact hr

theorem enabledRules_congr {c c' : Config}
    (henabled : ∀ b, (c'.settings b).enabled = (c.settings b).enabled)
    (hoptions : ∀ b, (c'.settings b).options = (c.settings b).options) :
    c'.enabledRules = c.enabledRules := by
  simp only [enabledRules, henabled, hoptions]

theorem engine_of_enabledRules {rules : List ConfiguredRule} (h : c.enabledRules = .ok rules) :
    c.engine = .ok ⟨rules.map ConfiguredRule.rule, c.overrides⟩ := by
  rw [engine, h]
  rfl

theorem severityOf_engine (h : c.engine = .ok e) {r : Rule} {b : Builtin} (hr : r.info.id = b.id)
    (messageId : String) :
    e.severityOf r messageId =
      ((c.settings b).level?.bind Level.severity?).getD (r.info.severityOf messageId) := by
  rw [Engine.severityOf, overrides_of_engine h, hr, lookup_overrides]

/-- **Off.** The runs without a rule have the violations of the other rules. -/
theorem runsRelate_of_off [SourceReader] (he : c.engine = .ok e)
    (hoff : settings.level? = some .off) : c.RunsRelate
      (fun vs ws => List.Forall₂ Violation.SameButNumber (vs.filter fun v => v.rule != b.id) ws)
      { c with rules := putEntry c.rules b settings } := by
  obtain ⟨rules, hrules, hall⟩ := rules_of_engine he
  have he' := engine_of_enabledRules (enabledRules_of_off (b := b) hrules hoff)
  have hfewer : (rules.filter fun r => r.builtin != b).map ConfiguredRule.rule =
      e.rules.filter fun r => r.info.id != b.id := by
    rw [hall, List.filter_map]
    congr 1
    refine List.filter_congr fun r _ => ?_
    rw [Function.comp_apply, r.rule_id, Bool.eq_iff_iff, bne_iff_ne, bne_iff_ne, Ne, Ne,
      Builtin.id_inj]
  rw [hfewer] at he'
  refine runsRelate_of_found (fun files f g hfg => ?_) he he' fun read run file => ?_
  · rw [List.filter_flatMap]
    exact List.rel_flatMap (List.forall₂_same.2 fun _ _ => rfl) fun file _ heq => heq ▸ hfg file
  · have hpicked := Engine.forall₂_found_picked (independent_engine he) (· != b.id)
      (bne_iff_ne.2 b.id_ne_parseRule.symm) read run file
    have hrestates : Engine.Restates id
        { e with rules := e.rules.filter fun r => r.info.id != b.id }
        ⟨e.rules.filter fun r => r.info.id != b.id,
          { c with rules := putEntry c.rules b settings }.overrides⟩ := by
      refine Engine.restates_of_severityOf rfl fun r hr messageId => ?_
      obtain ⟨hmem, hid⟩ := List.mem_filter.1 hr
      obtain ⟨_, b', -, hb', -⟩ := exists_builtin_of_mem_engine he hmem
      have hne : b' ≠ b := fun heq => bne_iff_ne.1 hid (hb'.trans (congrArg Builtin.id heq))
      rw [severityOf_engine he' hb', settings_putEntry, if_neg hne]
      exact (severityOf_engine he hb' messageId).symm
    rw [hrestates.found, List.map_id]
    exact hpicked

/-- **Errors and warnings.** The runs with another level of a rule have the same violations, with
the severity of that level where they are violations of the rule. -/
theorem runsRelate_of_level [SourceReader] (he : c.engine = .ok e)
    (henabled : (c.settings b).enabled) (hoptions : settings.options = (c.settings b).options)
    {s : Severity} (hlevel : settings.level?.bind Level.severity? = some s) :
    c.RunsRelate (fun vs ws => ws = vs.map (Violation.reweighed b.id s))
      { c with rules := putEntry c.rules b settings } := by
  obtain ⟨rules, hrules, rfl⟩ := exists_rules_of_engine he
  have hsame : { c with rules := putEntry c.rules b settings }.enabledRules = c.enabledRules := by
    refine enabledRules_congr (fun b' => ?_) fun b' => ?_
    · rw [settings_putEntry]
      split_ifs with hb
      · rw [hb, henabled, RuleSettings.enabled, bne_iff_ne]
        intro hoff
        rw [hoff] at hlevel
        cases hlevel
      · rfl
    · rw [settings_putEntry]
      split_ifs with hb
      · rw [hb, hoptions]
      · rfl
  have he' := engine_of_enabledRules (hsame.trans hrules)
  refine runsRelate_of_found (fun files f g hfg => ?_) he he' fun read run file => ?_
  · rw [List.map_flatMap]
    exact congrArg files.flatMap (funext hfg)
  · refine Engine.Restates.found ?_ read run file
    refine Engine.restates_reweighed rfl b.id_ne_parseRule fun r hr messageId => ?_
    obtain ⟨_, b', -, hb', -⟩ := exists_builtin_of_mem_engine he hr
    rw [severityOf_engine he' hb', severityOf_engine he hb', settings_putEntry, hb']
    by_cases hb : b' = b
    · rw [if_pos hb, if_pos (congrArg Builtin.id hb), hlevel, Option.getD_some]
    · rw [if_neg hb, if_neg (mt Builtin.id_inj.1 hb)]

theorem engine_of_settings {rules : List (Builtin × RuleSettings)}
    (h : ∀ b, rules.lookup b = c.rules.lookup b) : { c with rules := rules }.engine = c.engine := by
  simp only [engine, enabledRules, overrides, Config.settings, h]

end Config

/-- **Order.** Configurations with the same settings of each rule lead to the same runs. -/
theorem analyze_eq_of_settings [SourceReader] {c : Config} {rules : List (Builtin × RuleSettings)}
    (h : ∀ b, rules.lookup b = c.rules.lookup b) (d : Disk) (root : String) (scope : Scope)
    (clock : Clock) :
    analyze d root { c with rules := rules } scope clock = analyze d root c scope clock := by
  have hscope : scope.files d root { c with rules := rules } = scope.files d root c := by
    cases scope <;> rfl
  unfold analyze
  rw [Config.engine_of_settings h, hscope]
  rfl

/-- **Settings.** Take a document that is read as a configuration with rules, and one of the rules.
With an entry that switches the rule off, the runs have the same violations but those of the rule.
With an entry that makes the rule report errors or warnings, and leaves its options, they have the
same violations but for the severity of those of the rule. With the entries for rules in another
order the runs are the same. -/
theorem rule_settings_effect [SourceReader] {v : Value} {c : Config} {e : Engine}
    (hv : v.HasDistinctRules) (hc : Config.ofValue v = .ok c) (he : c.engine = .ok e)
    (b : Builtin) :
    (∀ entry settings, RuleSettings.read b.id entry = .ok settings →
      settings.level? = some .off →
      ∃ c', Config.ofValue (v.withRule b entry) = .ok c' ∧
        c.RunsRelate (fun vs ws => List.Forall₂ Violation.SameButNumber
          (vs.filter fun x => x.rule != b.id) ws) c') ∧
    (∀ entry settings s, RuleSettings.read b.id entry = .ok settings →
      (c.settings b).enabled → settings.options = (c.settings b).options →
      settings.level?.bind Level.severity? = some s →
      ∃ c', Config.ofValue (v.withRule b entry) = .ok c' ∧
        c.RunsRelate (fun vs ws => ws = vs.map (Violation.reweighed b.id s)) c') ∧
    ∀ order, order.Perm v.ruleEntries →
      ∃ c', Config.ofValue (v.withRules order) = .ok c' ∧ c'.engine = .ok e ∧
        (∀ read view root files clock, analyzeFiles read view root c' e files clock =
          analyzeFiles read view root c e files clock) ∧
        ∀ d root scope clock, analyze d root c' scope clock = analyze d root c scope clock := by
  refine ⟨fun entry settings hentry hoff => ?_,
    fun entry settings s hentry henabled hoptions hlevel => ?_, fun order horder => ?_⟩
  · exact ⟨_, Config.ofValue_withRule hv hc hentry, Config.runsRelate_of_off he hoff⟩
  · exact ⟨_, Config.ofValue_withRule hv hc hentry,
      Config.runsRelate_of_level he henabled hoptions hlevel⟩
  · obtain ⟨rules, hrules, hsettings⟩ := Config.exists_ofValue_withRules hv hc horder
    exact ⟨_, hrules, (Config.engine_of_settings hsettings).trans he,
      fun _ _ _ _ _ => rfl, analyze_eq_of_settings hsettings⟩

/-- A document that sets two rules, changed in each of the ways. -/
theorem rule_settings_effect_lenient :
    Shop.lenient.HasDistinctRules ∧ ∃ c e, Config.ofValue Shop.lenient = .ok c ∧
      c.engine = .ok e ∧ (c.settings .layerBoundary).enabled = true ∧
      (∃ off, Config.ofValue (Shop.lenient.withRule .layerBoundary
          (.mapping [(.text "severity", .bool false)])) = .ok off ∧
        c.RunsRelate (fun vs ws => List.Forall₂ Violation.SameButNumber
          (vs.filter fun x => x.rule != Builtin.layerBoundary.id) ws) off) ∧
      (∃ strict, Config.ofValue (Shop.lenient.withRule .layerBoundary (.text "error")) =
          .ok strict ∧
        c.RunsRelate (fun vs ws =>
          ws = vs.map (Violation.reweighed Builtin.layerBoundary.id .error)) strict) ∧
      ∃ turned, Config.ofValue (Shop.lenient.withRules Shop.lenient.ruleEntries.reverse) =
          .ok turned ∧
        ∀ d root scope clock,
          analyze d root turned scope clock = analyze d root c scope clock := by
  have hv : Shop.lenient.HasDistinctRules := by
    rw [Value.HasDistinctRules]
    decide +kernel
  obtain ⟨c, hc⟩ : ∃ c, Config.ofValue Shop.lenient = .ok c := ⟨_, rfl⟩
  obtain ⟨e, he⟩ : ∃ e, c.engine = .ok e := by
    cases hc
    exact ⟨_, rfl⟩
  have henabled : (c.settings .layerBoundary).enabled = true := by
    cases hc
    rfl
  have hoptions : [] = (c.settings .layerBoundary).options := by
    cases hc
    rfl
  obtain ⟨hoff, hlevel, horder⟩ := rule_settings_effect hv hc he .layerBoundary
  obtain ⟨turned, hturned, -, -, hruns⟩ := horder _ (List.reverse_perm _)
  exact ⟨hv, c, e, hc, he, henabled, hoff _ ⟨some .off, []⟩ rfl rfl,
    hlevel _ ⟨some .error, []⟩ .error rfl henabled hoptions rfl, turned, hturned, hruns⟩

end SliceLint
