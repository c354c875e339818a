import SliceLint.Proofs.Rule.TypeImport

/-!
# Hooks that a widget takes from a feature

Two rules look for such hooks. The rule on layers looks at every import. The rule on services looks
at imports of values in components, and passes over tests and over specifiers that mention `react`.

**Guards** (`ServiceImport.Checks`). What the rule on services asks of an import before it looks
where the import leads.

**One condition** (`LayerBoundary.TakesHooks`). Behind its guards each rule reports the hooks under
this condition and no other. So the two rules report the same hooks at the same imports, but for
those that the guards of the one rule leave out (`hooks_reported_alike`).
-/

namespace SliceLint

/-- Among the findings is one with the message that names the hooks, at the place. -/
def ReportsHooks (findings : List Finding) (messageId : String) (place : Position)
    (hooks? : Option Datum) : Prop :=
  ∃ f ∈ findings, f.messageId = messageId ∧ f.place = place ∧ f.data.lookup "hooks" = hooks?

/-- At a node the rule reports hooks under the message, with the counters it is called with. -/
def Rule.ReportsHooks (r : Rule) (messageId : String) (v : Visit) (ctx : FileContext)
    (s : Counters) (place : Position) (hooks? : Option Datum) : Prop :=
  ∃ fs, (r.onNode v ctx s).1 = .ok fs ∧ SliceLint.ReportsHooks fs messageId place hooks?

theorem Rule.reportsHooks_ofNodes {info : RuleInfo} {kinds : List String}
    {look : Visit → FileContext → List Finding} {messageId : String} {v : Visit}
    {ctx : FileContext} {s : Counters} {place : Position} {hooks? : Option Datum} :
    (Rule.ofNodes info kinds look).ReportsHooks messageId v ctx s place hooks? ↔
      SliceLint.ReportsHooks (look v ctx) messageId place hooks? := by
  constructor
  · rintro ⟨fs, hfs, hreports⟩
    cases hfs
    exact hreports
  · exact fun hreports => ⟨look v ctx, rfl, hreports⟩

/-- The names of the hooks among bindings, as a finding shows them. -/
def shownHooks (bindings : List String) : Datum := .text (Text.join ", " (hookNames bindings))

variable {statement : Tree} {ctx : FileContext} {place : Position} {hooks? : Option Datum}

/-! ## The rule on layers -/

namespace LayerBoundary

theorem mem_checkHooks {i : Import} {f : Finding} (hi : import? statement ctx = some i)
    (hf : f ∈ check statement ctx) (hid : f.messageId = "widgetImportingFromFeature") :
    f ∈ checkHooks i := by
  simp only [check, hi, List.mem_append] at hf
  rcases hf with (((hf | hf) | hf) | hf) | hf
  · exact hf
  · have hother := eq_of_map_eq_ite (messageIds_checkDirection i _) hf
    exact absurd (hid.symm.trans hother) (by decide)
  · have hother := eq_of_map_eq_ite (messageIds_checkSlices i) hf
    exact absurd (hid.symm.trans hother) (by decide)
  · have hother := eq_of_map_eq_ite (messageIds_checkInterface i _) hf
    exact absurd (hid.symm.trans hother) (by decide)
  · have hother := eq_of_map_eq_ite (messageIds_checkServer i _) hf
    exact absurd (hid.symm.trans hother) (by decide)

/-- The rule reports the hooks of every import that takes hooks, and of no other. -/
theorem reportsHooks_iff :
    ReportsHooks (check statement ctx) "widgetImportingFromFeature" place hooks? ↔
      TakesHooks statement.importSource? statement.importBindings ctx ∧
        place = statement.start ∧ hooks? = some (shownHooks statement.importBindings) := by
  rw [takesHooks_iff]
  constructor
  · rintro ⟨f, hf, hid, rfl, rfl⟩
    cases hi : import? statement ctx with
    | none =>
      rw [check, hi] at hf
      exact absurd hf List.not_mem_nil
    | some i =>
      obtain ⟨-, -, -, hhooks, hplace⟩ := import?_eq_some_iff.1 hi
      have hfound := mem_checkHooks hi hf hid
      simp only [checkHooks, List.mem_ite_nil_right, List.mem_singleton] at hfound
      obtain ⟨htakes, rfl⟩ := hfound
      refine ⟨⟨i, rfl, htakes⟩, hplace, ?_⟩
      rw [shownHooks, ← hhooks]
      rfl
  · rintro ⟨⟨i, hi, htakes⟩, rfl, rfl⟩
    obtain ⟨-, -, -, hhooks, hplace⟩ := import?_eq_some_iff.1 hi
    have hcheck : checkHooks i ⊆ check statement ctx := by
      intro f hf
      simp only [check, hi, List.mem_append]
      exact Or.inl (Or.inl (Or.inl (Or.inl hf)))
    rw [checkHooks, if_pos htakes] at hcheck
    refine ⟨_, hcheck (List.mem_singleton_self _), rfl, hplace, ?_⟩
    rw [shownHooks, ← hhooks]
    rfl

end LayerBoundary

/-! ## The rule on services -/

namespace ServiceImport

/-- The import passes the guards of the rule. -/
structure Checks (statement : Tree) (relPath : String) : Prop where
  component : FileKind.isComponent relPath = true
  noTest : FileKind.isTest relPath = false
  noReact : ∀ source, statement.importSource? = some source → mentionsReact source = false
  values : statement.importsTypesOnly = false

theorem checked?_eq_some_iff {relPath source : String} :
    checked? statement relPath = some source ↔
      statement.importSource? = some source ∧ Checks statement relPath := by
  constructor
  · intro h
    have hsource : statement.importSource? = some source := by
      rw [checked?] at h
      split at h
      · cases h
      · obtain ⟨source', hsource, hkept⟩ := Option.bind_eq_some_iff.1 h
        split at hkept
        · cases hkept
        · rwa [← Option.some.inj hkept]
    rw [checked?_eq hsource] at h
    split at h
    · cases h
    · rename_i hpass
      simp only [Bool.or_eq_true, not_or, Bool.not_eq_true, Bool.not_eq_false'] at hpass
      refine ⟨hsource, hpass.1.1.1, hpass.1.1.2, fun source' hsource' => ?_, hpass.2⟩
      rw [← Option.some.inj (hsource.symm.trans hsource')]
      exact hpass.1.2
  · rintro ⟨hsource, hcomponent, htest, hreact, hvalues⟩
    rw [checked?_eq hsource, hcomponent, htest, hreact source hsource, hvalues]
    rfl

theorem takesHooks_iff {source : String} {bindings : List String} :
    LayerBoundary.TakesHooks (some source) bindings ctx ↔
      ((ctx.coordinate.map Coordinate.layer) == some .widgets &&
        ((target? source ctx).map Coordinate.layer) == some .features &&
        !(hookNames bindings).isEmpty) = true := by
  simp only [LayerBoundary.TakesHooks, Option.bind_some, Bool.and_eq_true, beq_iff_eq,
    Bool.not_eq_true', LayerBoundary.hookNames_isEmpty_eq_false_iff, and_assoc]

/-- Of the imports that it checks, the rule reports the hooks of those that take hooks. -/
theorem reportsHooks_iff :
    ReportsHooks (check statement ctx) "directFeatureHookImport" place hooks? ↔
      Checks statement ctx.relPath ∧
        LayerBoundary.TakesHooks statement.importSource? statement.importBindings ctx ∧
        place = statement.start ∧ hooks? = some (shownHooks statement.importBindings) := by
  constructor
  · rintro ⟨f, hf, hid, rfl, rfl⟩
    obtain ⟨source, hchecked, hf⟩ := mem_check_iff.1 hf
    obtain ⟨hsource, hchecks⟩ := checked?_eq_some_iff.1 hchecked
    rcases hf with hf | hf | hf
    · simp only [checkHooks, List.mem_ite_nil_right, List.mem_singleton] at hf
      obtain ⟨htakes, rfl⟩ := hf
      rw [hsource]
      exact ⟨hchecks, takesHooks_iff.2 htakes, rfl, rfl⟩
    · have hother := eq_of_map_eq_ite (messageIds_checkService _ _ _) hf
      exact absurd (hid.symm.trans hother) (by decide)
    · have hother := eq_of_map_eq_ite (messageIds_checkClient _ _ _) hf
      exact absurd (hid.symm.trans hother) (by decide)
  · rintro ⟨hchecks, htakes, rfl, rfl⟩
    cases hsource : statement.importSource? with
    | none =>
      rw [hsource] at htakes
      obtain ⟨-, hnone, -⟩ := htakes
      cases hnone
    | some source =>
      have hchecked := checked?_eq_some_iff.2 ⟨hsource, hchecks⟩
      have hcheck : checkHooks statement.start source statement.importBindings ctx ⊆
          check statement ctx := fun f hf => mem_check_iff.2 ⟨source, hchecked, Or.inl hf⟩
      rw [hsource] at htakes
      rw [checkHooks, if_pos (takesHooks_iff.1 htakes)] at hcheck
      exact ⟨_, hcheck (List.mem_singleton_self _), rfl, rfl, rfl⟩

end ServiceImport

/-- **Agreement.** At every node the rule on services reports the hooks that the rule on layers
reports there, if the import passes its guards, and else none. -/
theorem hooks_reported_alike (v : Visit) (ctx : FileContext) (s s' : Counters) (place : Position)
    (hooks? : Option Datum) :
    ServiceImport.rule.ReportsHooks "directFeatureHookImport" v ctx s place hooks? ↔
      ServiceImport.Checks v.node ctx.relPath ∧
        LayerBoundary.rule.ReportsHooks "widgetImportingFromFeature" v ctx s' place hooks? := by
  rw [ServiceImport.rule, LayerBoundary.rule, Rule.reportsHooks_ofNodes,
    Rule.reportsHooks_ofNodes, ServiceImport.reportsHooks_iff, LayerBoundary.reportsHooks_iff]

/-- The header of a shop takes hooks from a feature, besides another name. -/
example :
    (ServiceImport.check (LayerBoundary.namedImports false false LayerBoundary.authHooks
      [⟨"useAuth", none⟩, ⟨"session", none⟩, ⟨"leave", some "useLeave"⟩])
      LayerBoundary.headerFile).map Finding.data = [[("hooks", .text "useAuth, useLeave")]] := by
  decide +kernel

end SliceLint
