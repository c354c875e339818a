import SliceLint.Config.RuleOptions
import SliceLint.Proofs.Engine.Independence
import SliceLint.Proofs.Rule.SliceBaseline

/-!
# The built-in rules are independent

**Declared findings** (`ConfiguredRule.declares`). Whatever its option, a built-in rule reports
only messages that it declares, with data for every gap.

**Counters** (`ConfiguredRule.confined`). One rule counts, and it counts default exports only.

**Independence** (`Config.independent`). So the rules that a configuration enables are
independent, and no run of theirs stops for want of words.
-/

namespace SliceLint

/-! ## Declared findings -/

/-- The data of a finding fill every gap of its message when they have a datum of each name. -/
theorem RuleInfo.covers_of_names {info : RuleInfo} {f : Finding}
    (h : ((info.messages.lookup f.messageId).any fun t =>
      t.gaps.all (f.data.map Prod.fst).contains) = true) : info.Covers f := by
  obtain ⟨t, ht, hgaps⟩ := (Option.any_eq_true _ _).1 h
  refine ⟨t, ht, fun name hname => ?_⟩
  have hdatum := List.contains_iff_mem.1 (List.all_eq_true.1 hgaps name hname)
  obtain ⟨⟨name', d⟩, hmem, rfl⟩ := List.mem_map.1 hdatum
  by_contra hnone
  rw [Option.not_isSome_iff_eq_none, List.lookup_eq_none_iff] at hnone
  exact bne_iff_ne.1 (hnone _ hmem) rfl

theorem Rule.declares_ofNodes {info : RuleInfo} {kinds : List String}
    {look : Visit → FileContext → List Finding}
    (h : ∀ v ctx, ∀ f ∈ look v ctx, info.Covers f) : (Rule.ofNodes info kinds look).Declares := by
  intro o ctx s fs hfs f hf
  cases o with
  | node v =>
    cases hfs
    exact h v ctx f hf
  | exit =>
    cases hfs
    exact absurd hf List.not_mem_nil
  | unparsed =>
    cases hfs
    exact absurd hf List.not_mem_nil

theorem LiteralStyle.covers_checkStyle {style : Tree} {f : Finding}
    (h : f ∈ LiteralStyle.checkStyle style) : LiteralStyle.info.Covers f := by
  obtain ⟨member, -, hf⟩ := List.mem_flatMap.1 h
  unfold LiteralStyle.checkMember at hf
  split at hf
  · exact absurd hf List.not_mem_nil
  · obtain ⟨family, -, rfl⟩ := List.mem_map.1 hf
    cases family <;> exact RuleInfo.covers_of_names rfl

theorem LayerBoundary.covers_check {statement : Tree} {ctx : FileContext} {f : Finding}
    (h : f ∈ LayerBoundary.check statement ctx) : LayerBoundary.info.Covers f := by
  unfold LayerBoundary.check at h
  split at h
  · exact absurd h List.not_mem_nil
  · rename_i i _
    simp only [List.mem_append] at h
    rcases h with (((h | h) | h) | h) | h
    · simp only [LayerBoundary.checkHooks, List.mem_ite_nil_right, List.mem_singleton] at h
      obtain ⟨-, rfl⟩ := h
      exact RuleInfo.covers_of_names rfl
    · simp only [LayerBoundary.checkDirection, List.mem_ite_nil_right, List.mem_singleton] at h
      obtain ⟨-, rfl⟩ := h
      exact RuleInfo.covers_of_names rfl
    · unfold LayerBoundary.checkSlices at h
      split at h
      · simp only [List.mem_ite_nil_right, List.mem_singleton] at h
        obtain ⟨-, rfl⟩ := h
        exact RuleInfo.covers_of_names rfl
      · exact absurd h List.not_mem_nil
    · simp only [LayerBoundary.checkInterface, List.mem_ite_nil_right, List.mem_singleton] at h
      obtain ⟨-, rfl⟩ := h
      exact RuleInfo.covers_of_names rfl
    · simp only [LayerBoundary.checkServer, List.mem_ite_nil_right, List.mem_singleton] at h
      obtain ⟨-, rfl⟩ := h
      exact RuleInfo.covers_of_names rfl

theorem ServiceImport.covers_check {statement : Tree} {ctx : FileContext} {f : Finding}
    (h : f ∈ ServiceImport.check statement ctx) : ServiceImport.info.Covers f := by
  unfold ServiceImport.check at h
  split at h
  · exact absurd h List.not_mem_nil
  · simp only [List.mem_append] at h
    rcases h with (h | h) | h
    · simp only [ServiceImport.checkHooks, List.mem_ite_nil_right, List.mem_singleton] at h
      obtain ⟨-, rfl⟩ := h
      exact RuleInfo.covers_of_names rfl
    · unfold ServiceImport.checkService at h
      split at h
      · exact absurd h List.not_mem_nil
      · rw [List.mem_singleton.1 h]
        exact RuleInfo.covers_of_names rfl
    · unfold ServiceImport.checkClient at h
      split at h
      · exact absurd h List.not_mem_nil
      · rw [List.mem_singleton.1 h]
        exact RuleInfo.covers_of_names rfl

theorem ApiContract.covers_check {ctx : FileContext} {f : Finding}
    (h : f ∈ ApiContract.check ctx) : ApiContract.info.Covers f := by
  simp only [ApiContract.check, List.mem_ite_nil_right, List.mem_singleton] at h
  obtain ⟨-, rfl⟩ := h
  exact RuleInfo.covers_of_names rfl

theorem ComponentShape.declares_rule (limit : Nat) : (ComponentShape.rule limit).Declares := by
  intro o ctx s fs hfs f hf
  cases o with
  | node v =>
    have hnode : (ComponentShape.onNode v ctx s).1 = .ok fs := hfs
    unfold ComponentShape.onNode at hnode
    split at hnode
    · cases hnode
      exact absurd hf List.not_mem_nil
    · simp only at hnode
      split at hnode
      · cases hnode
        rw [List.mem_singleton.1 hf]
        exact RuleInfo.covers_of_names rfl
      · cases hnode
        exact absurd hf List.not_mem_nil
  | exit =>
    cases hfs
    simp only [ComponentShape.checkLines, List.mem_ite_nil_right, List.mem_singleton] at hf
    obtain ⟨-, rfl⟩ := hf
    exact RuleInfo.covers_of_names rfl
  | unparsed =>
    cases hfs
    exact absurd hf List.not_mem_nil

theorem FunctionTests.covers_checkTests {view : FileView} {paths : String × String}
    {fs : List Finding} (h : FunctionTests.checkTests view paths = .ok fs) :
    ∀ f ∈ fs, FunctionTests.info.Covers f := by
  intro f hf
  unfold FunctionTests.checkTests at h
  cases hfound : FunctionTests.existing? view paths with
  | error fault =>
    rw [hfound] at h
    cases h
  | ok found =>
    cases found with
    | none =>
      rw [hfound] at h
      cases h
      rw [List.mem_singleton.1 hf]
      exact RuleInfo.covers_of_names rfl
    | some path =>
      cases htext : view.readText path with
      | error fault =>
        rw [hfound] at h
        simp only [bind, Except.bind, htext] at h
        cases h
      | ok text =>
        rw [hfound] at h
        simp only [bind, Except.bind, htext] at h
        split at h
        · cases h
          exact absurd hf List.not_mem_nil
        · cases h
          rw [List.mem_singleton.1 hf]
          exact RuleInfo.covers_of_names rfl

theorem FunctionTests.declares_rule (directories : List String) :
    (FunctionTests.rule directories).Declares := by
  intro o ctx s fs hfs f hf
  cases o with
  | node v =>
    have hcheck : FunctionTests.check (directories.map FunctionTests.marker) ctx = .ok fs := hfs
    unfold FunctionTests.check at hcheck
    split at hcheck
    · cases hcheck
      exact absurd hf List.not_mem_nil
    · split at hcheck
      · exact FunctionTests.covers_checkTests hcheck f hf
      · cases hcheck
  | exit =>
    cases hfs
    exact absurd hf List.not_mem_nil
  | unparsed =>
    cases hfs
    exact absurd hf List.not_mem_nil

theorem SliceBaseline.declares_rule (files : List String) :
    (SliceBaseline.rule files).Declares := by
  intro o ctx s fs hfs f hf
  cases o with
  | exit =>
    cases hfs
    exact absurd hf List.not_mem_nil
  | node _ | unparsed =>
    obtain ⟨file, rfl⟩ := SliceBaseline.exists_missing_of_mem_check hfs hf
    exact RuleInfo.covers_of_names rfl

namespace ConfiguredRule

/-- **Declared findings.** A built-in rule reports nothing but messages it declares, with data for
every gap. -/
theorem declares (r : ConfiguredRule) : r.rule.Declares := by
  cases r with
  | literalStyle =>
    refine Rule.declares_ofNodes fun v ctx f hf => ?_
    split at hf
    · exact LiteralStyle.covers_checkStyle hf
    · exact absurd hf List.not_mem_nil
  | layerBoundary => exact Rule.declares_ofNodes fun v ctx f => LayerBoundary.covers_check
  | componentShape limit => exact ComponentShape.declares_rule limit
  | functionTests directories => exact FunctionTests.declares_rule directories
  | serviceImport => exact Rule.declares_ofNodes fun v ctx f => ServiceImport.covers_check
  | apiContract => exact Rule.declares_ofNodes fun v ctx f => ApiContract.covers_check
  | sliceBaseline files => exact SliceBaseline.declares_rule files

end ConfiguredRule

/-! ## Counters -/

theorem FunctionTests.stateless_rule (directories : List String) :
    (FunctionTests.rule directories).Stateless := by
  intro o ctx s
  cases o <;> rfl

theorem SliceBaseline.stateless_rule (files : List String) :
    (SliceBaseline.rule files).Stateless := by
  intro o ctx s
  cases o <;> rfl

theorem ComponentShape.confined_rule (limit : Nat) :
    (ComponentShape.rule limit).Confined {ComponentShape.exportsKey} where
  answers := by
    intro o ctx s t hst
    have hcount := hst ComponentShape.exportsKey rfl
    cases o with
    | node v =>
      show (ComponentShape.onNode v ctx s).1 = (ComponentShape.onNode v ctx t).1
      simp only [ComponentShape.onNode, Counters.increment, Counters.get_set_self, hcount]
      split_ifs <;> rfl
    | exit => rfl
    | unparsed => rfl
  counts := by
    intro o ctx s t hst k hk
    have hcount := hst ComponentShape.exportsKey rfl
    obtain rfl : k = ComponentShape.exportsKey := hk
    cases o with
    | node v =>
      show (ComponentShape.onNode v ctx s).2.get _ = (ComponentShape.onNode v ctx t).2.get _
      simp only [ComponentShape.onNode, Counters.increment, Counters.get_set_self, hcount]
      split_ifs <;> simp [hcount]
    | exit => exact (Counters.get_clear_self _ _).trans (Counters.get_clear_self _ _).symm
    | unparsed => exact hcount
  leaves := by
    intro o ctx s k hk
    have hne : k ≠ ComponentShape.exportsKey := hk
    cases o with
    | node v =>
      show (ComponentShape.onNode v ctx s).2.get k = s.get k
      have hcount : (s.increment ComponentShape.exportsKey).get k = s.get k :=
        Counters.get_set_of_ne s _ hne
      simp only [ComponentShape.onNode]
      split_ifs
      · rfl
      · exact hcount
      · exact hcount
    | exit => exact Counters.get_clear_of_ne s hne
    | unparsed => rfl

/-- The counters of a built-in rule, by its name. -/
def Builtin.counters (id : String) : Set String :=
  {key | id = Builtin.componentShape.id ∧ key = ComponentShape.exportsKey}

theorem Builtin.notMem_counters {id id' : String} (h : id ≠ id') :
    ∀ key ∈ counters id, key ∉ counters id' :=
  fun _ hkey hkey' => h (hkey.1.trans hkey'.1.symm)

namespace ConfiguredRule

theorem rule_id (r : ConfiguredRule) : r.rule.info.id = r.builtin.id := by cases r <;> rfl

theorem confined (r : ConfiguredRule) : r.rule.Confined (Builtin.counters r.rule.info.id) := by
  cases r with
  | literalStyle => exact (Rule.stateless_ofNodes _ _ _).confined _
  | layerBoundary => exact (Rule.stateless_ofNodes _ _ _).confined _
  | componentShape limit =>
    have hkey : Builtin.counters (componentShape limit).rule.info.id =
        {ComponentShape.exportsKey} := by
      ext key
      exact and_iff_right rfl
    rw [hkey]
    exact ComponentShape.confined_rule limit
  | functionTests directories => exact (FunctionTests.stateless_rule directories).confined _
  | serviceImport => exact (Rule.stateless_ofNodes _ _ _).confined _
  | apiContract => exact (Rule.stateless_ofNodes _ _ _).confined _
  | sliceBaseline files => exact (SliceBaseline.stateless_rule files).confined _

/-! ## The rules of a configuration -/

theorem builtin_standard (b : Builtin) : (standard b).builtin = b := by cases b <;> rfl

theorem builtin_of_readOption {b : Builtin} {v : Value} {r : ConfiguredRule}
    (h : readOption b v = .ok r) : r.builtin = b := by
  unfold readOption at h
  split at h
  · unfold readLimit at h
    split at h
    · split at h
      · cases h
      · cases h
        rfl
    · cases h
  all_goals
    cases h
    try rfl

theorem builtin_of_ofOptions {b : Builtin} {options : List (String × Value)} {r : ConfiguredRule}
    (h : ofOptions b options = .ok r) : r.builtin = b := by
  unfold ofOptions at h
  split at h
  · cases h
    exact builtin_standard b
  · split at h
    · exact builtin_of_readOption h
    · cases h
  · cases h

end ConfiguredRule

theorem Builtin.nodup_ids : (Builtin.all.map Builtin.id).Nodup := by decide

namespace Config

theorem builtins_of_enabledRules {c : Config} {rules : List ConfiguredRule}
    (h : c.enabledRules = .ok rules) :
    rules.map ConfiguredRule.builtin = Builtin.all.filter fun b => (c.settings b).enabled := by
  have hrules := mapM_eq_ok_iff.1 h
  rw [← List.forall₂_eq_eq_eq, List.forall₂_map_left_iff]
  exact (hrules.imp fun b r hr => (ConfiguredRule.builtin_of_ofOptions hr).symm).flip.imp
    fun _ _ heq => Eq.symm heq

/-- **Independence.** The rules that a configuration enables have different names, keep to counters
of their own, and declare what they report. -/
theorem independent {c : Config} {rules : List ConfiguredRule} (h : c.enabledRules = .ok rules) :
    Independent Builtin.counters (rules.map ConfiguredRule.rule) where
  names := by
    have hids : (rules.map ConfiguredRule.rule).map (fun r => r.info.id) =
        (Builtin.all.filter fun b => (c.settings b).enabled).map Builtin.id := by
      rw [← builtins_of_enabledRules h, List.map_map, List.map_map]
      exact List.map_congr_left fun r _ => r.rule_id
    rw [hids]
    exact Builtin.nodup_ids.sublist (List.filter_sublist.map Builtin.id)
  confined := by
    intro r hr
    obtain ⟨r, -, rfl⟩ := List.mem_map.1 hr
    exact r.confined
  apart := fun r _ r' _ hid => Builtin.notMem_counters hid
  declares := by
    intro r hr
    obtain ⟨r, -, rfl⟩ := List.mem_map.1 hr
    exact r.declares

end Config

end SliceLint
