import SliceLint.Proofs.Rule.ServiceName
import SliceLint.Proofs.Rule.WidgetHooks
import SliceLint.Source.Cursor

/-!
# Accessors in place of services

A component takes a service or a client from its accessor, a hook, and the rule on services
recommends the accessor of what it reports.

**Reports** (`mem_check_iff_flagged?`). What the rule says of services and of clients is one finding
each, for the name to report.

**Accessors are not reported** (`hooks_unreported`). An import that binds hooks alone is not
reported, and of any other import it is a binding that is reported, not a hook.

**Following the recommendation** (`recommendation_followed`). Where the accessor is imported in
place of what was reported, nothing is reported any more if the name starts plainly. Else the
accessor is no hook, and is reported in turn.
-/

namespace SliceLint

open ServiceName

namespace ServiceName.Dependency

def messageId : Dependency → String
  | service => "directServiceImport"
  | client => "directClientImport"

theorem messageId_injective : Function.Injective messageId := by
  intro d d' h
  cases d <;> cases d' <;> first | rfl | exact absurd h (by decide)

theorem messageId_ne_hooks (d : Dependency) : d.messageId ≠ "directFeatureHookImport" := by
  cases d <;> decide

/-- The finding that recommends the accessor of a name. -/
def finding (d : Dependency) (place : Position) (name : String) : Finding :=
  ⟨d.messageId, place, ServiceImport.injection name,
    [(d.keyword, .text name), ("accessor", .text (accessor name))]⟩

end ServiceName.Dependency

namespace ServiceImport

variable {statement : Tree} {ctx : FileContext} {f : Finding}

/-! ## What is reported -/

/-- The findings about one of the two. -/
def checkFor (d : Dependency) (place : Position) (bindings : List String) (segment : String) :
    List Finding :=
  ((flagged? bindings segment d.keyword).map (d.finding place)).toList

theorem checkService_eq (place : Position) (bindings : List String) (segment : String) :
    checkService place bindings segment = checkFor .service place bindings segment := by
  rw [checkService, checkFor, Dependency.keyword]
  cases flagged? bindings segment "service" <;> rfl

theorem checkClient_eq (place : Position) (bindings : List String) (segment : String) :
    checkClient place bindings segment = checkFor .client place bindings segment := by
  rw [checkClient, checkFor, Dependency.keyword]
  cases flagged? bindings segment "client" <;> rfl

theorem mem_checkFor {d : Dependency} {place : Position} {bindings : List String}
    {segment : String} : f ∈ checkFor d place bindings segment ↔
      ∃ name, flagged? bindings segment d.keyword = some name ∧ d.finding place name = f := by
  rw [checkFor, Option.mem_toList, Option.map_eq_some_iff]

theorem mem_check_iff_flagged? (d : Dependency) :
    f ∈ check statement ctx ∧ f.messageId = d.messageId ↔
      ∃ source name, (statement.importSource? = some source ∧ Checks statement ctx.relPath) ∧
        flagged? statement.importBindings (segment source) d.keyword = some name ∧
        f = d.finding statement.start name := by
  simp only [mem_check_iff, checked?_eq_some_iff, checkService_eq, checkClient_eq]
  constructor
  · rintro ⟨⟨source, hchecked, hf⟩, hid⟩
    have hown : ∀ d', f ∈ checkFor d' statement.start statement.importBindings (segment source) →
        ∃ name, flagged? statement.importBindings (segment source) d.keyword = some name ∧
          f = d.finding statement.start name := by
      intro d' hf
      obtain ⟨name, hname, rfl⟩ := mem_checkFor.1 hf
      obtain rfl := Dependency.messageId_injective hid
      exact ⟨name, hname, rfl⟩
    rcases hf with hf | hf | hf
    · exact absurd (hid.symm.trans (eq_of_map_eq_ite (messageIds_checkHooks _ _) hf))
        d.messageId_ne_hooks
    · obtain ⟨name, hname, hfinding⟩ := hown .service hf
      exact ⟨source, name, hchecked, hname, hfinding⟩
    · obtain ⟨name, hname, hfinding⟩ := hown .client hf
      exact ⟨source, name, hchecked, hname, hfinding⟩
  · rintro ⟨source, name, hchecked, hname, rfl⟩
    refine ⟨⟨source, hchecked, Or.inr ?_⟩, rfl⟩
    have hmem : d.finding statement.start name ∈
        checkFor d statement.start statement.importBindings (segment source) :=
      mem_checkFor.2 ⟨name, hname, rfl⟩
    cases d with
    | service => exact Or.inl hmem
    | client => exact Or.inr hmem

theorem ne_messageId_of_hooks (d : Dependency) (hbindings : statement.importBindings ≠ [])
    (hhooks : ∀ b ∈ statement.importBindings, isHookName b = true) :
    ∀ f ∈ check statement ctx, f.messageId ≠ d.messageId := by
  intro f hf hid
  obtain ⟨source, name, -, hname, -⟩ := (mem_check_iff_flagged? d).1 ⟨hf, hid⟩
  rw [flagged?_of_hooks hbindings hhooks] at hname
  cases hname

/-- **Hooks are not reported.** An import that binds hooks alone is reported neither for a service
nor for a client. Of an import that binds something, a service or a client is reported exactly when
the import passes the guards of the rule and has a binding to report. -/
theorem hooks_unreported (d : Dependency) (hbindings : statement.importBindings ≠ []) :
    ((∀ b ∈ statement.importBindings, isHookName b = true) →
      ∀ f ∈ check statement ctx, f.messageId ≠ d.messageId) ∧
    ∀ f, f ∈ check statement ctx ∧ f.messageId = d.messageId ↔
      ∃ source name, (statement.importSource? = some source ∧ Checks statement ctx.relPath) ∧
        Flagged d.keyword (segment source) statement.importBindings name ∧
        f = d.finding statement.start name := by
  refine ⟨ne_messageId_of_hooks d hbindings, fun f => ?_⟩
  simp only [mem_check_iff_flagged?, flagged?_eq_some_iff hbindings]

/-- An import of names from a module next to the header of the shop. -/
def modelImport (names : List String) : Tree :=
  LayerBoundary.namedImports false false "./model" (names.map fun name => ⟨name, none⟩)

theorem hooks_unreported_header :
    (∀ f ∈ check (modelImport ["useUserService"]) LayerBoundary.headerFile,
      f.messageId ≠ "directServiceImport") ∧
    Dependency.service.finding .origin "userService" ∈
      check (modelImport ["useCart", "cart", "userService"]) LayerBoundary.headerFile := by
  have hfirst : Flagged "service" (segment "./model")
      (modelImport ["useCart", "cart", "userService"]).importBindings "userService" :=
    .mentioning (find?_concrete.1 (by decide +kernel))
  exact ⟨(hooks_unreported .service (by decide +kernel)).1 (by decide +kernel),
    (((hooks_unreported .service (by decide +kernel)).2 _).2 ⟨"./model", "userService",
      checked?_eq_some_iff.1 (by decide +kernel), hfirst, rfl⟩).1⟩

/-! ## The recommendation -/

/-- The second statement imports the accessor of the name, and nothing else, from the module of the
first. -/
structure ImportsAccessor (name : String) (statement statement' : Tree) : Prop where
  source_eq : statement'.importSource? = statement.importSource?
  bindings_eq : statement'.importBindings = [accessor name]
  values : statement'.importsTypesOnly = false

theorem ImportsAccessor.checks {name : String} {statement' : Tree} {relPath : String}
    (h : ImportsAccessor name statement statement') (hchecks : Checks statement relPath) :
    Checks statement' relPath where
  component := hchecks.component
  noTest := hchecks.noTest
  noReact := by
    rw [h.source_eq]
    exact hchecks.noReact
  values := h.values

/-- **Following the recommendation.** A name and its camel case have one accessor. The accessor of
a name that starts plainly is a hook, and no other is. Where it is imported in place of the name
that was reported, it is not reported in turn if it is a hook, and else it is. -/
theorem recommendation_followed (d : Dependency) (statement : Tree) (ctx : FileContext) :
    (∀ name, accessor (camelCase name) = accessor name ∧
      isHookName (accessor name) = startsPlainly name) ∧
    ∀ f ∈ check statement ctx, f.messageId = d.messageId →
      ∃ name, f = d.finding statement.start name ∧
        ∀ statement', ImportsAccessor name statement statement' →
          (startsPlainly name = true →
            ∀ d' : Dependency, ∀ f' ∈ check statement' ctx, f'.messageId ≠ d'.messageId) ∧
          (startsPlainly name = false →
            d.finding statement'.start (accessor name) ∈ check statement' ctx) := by
  refine ⟨fun name => ⟨accessor_camelCase name, isHookName_accessor name⟩, fun f hf hid => ?_⟩
  obtain ⟨source, name, ⟨hsource, hchecks⟩, hname, rfl⟩ := (mem_check_iff_flagged? d).1 ⟨hf, hid⟩
  refine ⟨name, rfl, fun statement' himports => ⟨fun hplain d' => ?_, fun hplain => ?_⟩⟩
  · refine ne_messageId_of_hooks d' ?_ ?_
    · rw [himports.bindings_eq]
      exact List.cons_ne_nil _ _
    · rw [himports.bindings_eq, List.forall_mem_singleton, isHookName_accessor, hplain]
  · have hmentions : mentions d.keyword (accessor name) = true ∨
        mentions d.keyword (segment source) = true :=
      (mentions_of_flagged? hname).imp_left (mentions_accessor d)
    have hagain := flagged?_singleton hmentions
    rw [isHookName_accessor, hplain, if_neg Bool.false_ne_true] at hagain
    refine ((mem_check_iff_flagged? d).2 ⟨source, accessor name, ⟨?_, himports.checks hchecks⟩,
      ?_, rfl⟩).1
    · rw [himports.source_eq, hsource]
    · rw [himports.bindings_eq, hagain]

theorem recommendation_followed_header :
    ∀ f ∈ check (modelImport ["useUserService"]) LayerBoundary.headerFile,
      f.messageId ≠ "directServiceImport" := by
  obtain ⟨name, hfinding, hfollowed⟩ := (recommendation_followed .service
    (modelImport ["userService"]) LayerBoundary.headerFile).2
      (Dependency.service.finding .origin "userService") (by decide +kernel) rfl
  obtain ⟨rfl, -⟩ : "userService" = name ∧ accessor "userService" = accessor name := by
    simpa [Dependency.finding] using congrArg Finding.data hfinding
  exact (hfollowed (modelImport ["useUserService"])
    ⟨by decide +kernel, by decide +kernel, by decide +kernel⟩).1 (by decide +kernel) .service

/-- The accessor of a name that starts with a dollar sign is no hook, and is reported in turn. -/
theorem recommendation_in_vain_dollar :
    (Source.isNameStart '$' = true ∧ "service".toList.all Source.isNamePart = true) ∧
      check (modelImport ["$service"]) LayerBoundary.headerFile =
        [Dependency.service.finding .origin "$service"] ∧
      accessor "$service" = "use$Service" ∧ isHookName "use$Service" = false ∧
      check (modelImport ["use$Service"]) LayerBoundary.headerFile =
        [Dependency.service.finding .origin "use$Service"] := by
  decide +kernel

/-- Underscores in front of a name are dropped; a letter beyond ASCII has no ASCII capital. -/
example : startsPlainly "_userService" = true ∧ startsPlainly "élanService" = false ∧
    accessor "_user_service" = "useUserService" := by
  decide +kernel

end ServiceImport

end SliceLint
