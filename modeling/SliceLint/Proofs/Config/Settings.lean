import SliceLint.Proofs.Config.Reading
import SliceLint.Proofs.Document.PlainForm
import SliceLint.Proofs.Table

/-!
# Changing the settings of rules

A document is changed in its section on rules and read again.

**One rule** (`Config.ofValue_withRule`). A document that gets a new entry for a rule is read as
the configuration with new settings of this rule.

**Another order** (`Config.exists_ofValue_withRules`). A document whose entries for rules come in
another order is read as the configuration with its settings in another order.
-/

namespace SliceLint

namespace Value

/-! ## Documents with other rules -/

theorem find?_put (entries : List (Value × Value)) (key name : String) (value : Value) :
    find? (put entries (.text key) value) name =
      if name = key then some value else find? entries name := by
  have hkey : ∀ k : Value, k = .text key →
      (k.same (.text name) = true ↔ name = key) := by
    rintro _ rfl
    rw [same_text_iff, text.injEq, eq_comm]
  induction entries with
  | nil =>
    by_cases hname : name = key
    · subst hname
      simp [put, find?, (hkey _ rfl).2 rfl]
    · simp [put, find?, mt (hkey _ rfl).1 hname, hname]
  | cons entry rest ih =>
    obtain ⟨k, v⟩ := entry
    rw [put]
    split
    · rename_i hk
      have hk := hkey k (same_text_iff.1 hk)
      by_cases hname : name = key
      · subst hname
        simp [find?, hk.2 rfl]
      · simp [find?, mt hk.1 hname, hname]
    · rename_i hk
      by_cases hname : k.same (.text name) = true
      · have hne : name ≠ key := by
          rintro rfl
          exact hk hname
        simp [find?, hname, hne]
      · simpa [find?, hname] using ih

/-- The keys of a mapping stay when a value is put into it, and the new key may join them. -/
theorem key_of_mem_put {entries : List (Value × Value)} {key value : Value} {entry : Value × Value}
    (h : entry ∈ put entries key value) : entry.1 = key ∨ ∃ old ∈ entries, old.1 = entry.1 := by
  induction entries with
  | nil =>
    rw [List.mem_singleton.1 h]
    exact Or.inl rfl
  | cons old rest ih =>
    obtain ⟨k, v⟩ := old
    rw [put] at h
    split at h
    · rcases List.mem_cons.1 h with rfl | h
      · exact Or.inr ⟨_, List.mem_cons_self, rfl⟩
      · exact Or.inr ⟨entry, List.mem_cons_of_mem _ h, rfl⟩
    · rcases List.mem_cons.1 h with rfl | h
      · exact Or.inr ⟨_, List.mem_cons_self, rfl⟩
      · exact (ih h).imp_right fun ⟨old, hold, heq⟩ => ⟨old, List.mem_cons_of_mem _ hold, heq⟩

/-- The entries of a document for rules. -/
def ruleEntries (v : Value) : List (Value × Value) := ((v.section? "rules").getD .null).entries

/-- The document with these entries for rules. -/
def withRules (v : Value) (entries : List (Value × Value)) : Value :=
  mapping (put v.entries (text "rules") (mapping entries))

/-- The document with a new entry for a rule. -/
def withRule (v : Value) (b : Builtin) (entry : Value) : Value :=
  v.withRules (put v.ruleEntries (text b.id) entry)

/-- The entries of a document for rules have different keys, as those of every mapping. -/
def HasDistinctRules (v : Value) : Prop :=
  v.ruleEntries.Pairwise fun x y => x.1.same y.1 = false

theorem section?_withRules (v : Value) (entries : List (Value × Value)) (name : String) :
    (v.withRules entries).section? name =
      if name = "rules" then some (mapping entries) else v.section? name :=
  find?_put v.entries "rules" name (mapping entries)

end Value

theorem Builtin.isWord_id (b : Builtin) : IsWord b.id := by
  cases b <;> decide

namespace Config

/-! ## Reading entries -/

theorem readRule_eq_ok_iff {entry : Value × Value} {b : Builtin} {settings : RuleSettings} :
    readRule entry = .ok (b, settings) ↔
      entry.1 = .text b.id ∧ RuleSettings.read b.id entry.2 = .ok settings := by
  constructor
  · intro h
    have hkey := Value.eq_text_of_plain b.isWord_id (readRule_eq_ok h).1.symm
    refine ⟨hkey, ?_⟩
    have hof : Builtin.ofId? entry.1.plain = some b := by
      rw [hkey]
      exact Builtin.ofId?_eq_some_iff.2 rfl
    simp only [readRule, hof] at h
    cases hread : RuleSettings.read b.id entry.2 with
    | error f =>
      rw [hread] at h
      cases h
    | ok settings' =>
      rw [hread] at h
      cases h
      rfl
  · rintro ⟨hkey, hread⟩
    have hof : Builtin.ofId? entry.1.plain = some b := by
      rw [hkey]
      exact Builtin.ofId?_eq_some_iff.2 rfl
    simp only [readRule, hof, hread]
    rfl

/-- The settings are read from entries one by one. -/
def RulesRead (entries : List (Value × Value)) (rules : List (Builtin × RuleSettings)) : Prop :=
  List.Forall₂ (fun entry rule => readRule entry = .ok rule) entries rules

namespace RulesRead

variable {entries : List (Value × Value)} {rules : List (Builtin × RuleSettings)}

theorem nodup (h : RulesRead entries rules)
    (hkeys : entries.Pairwise fun x y => x.1.same y.1 = false) : (rules.map Prod.fst).Nodup :=
  nodup_of_named (h.imp fun _ _ hread => (readRule_eq_ok_iff.1 hread).1) hkeys

theorem readRules_eq (h : RulesRead entries rules) (hrules : (rules.map Prod.fst).Nodup) :
    readRules (some (.mapping entries)) = .ok rules := by
  rw [readRules, mapM_eq_ok_iff.2 h]
  exact congrArg Except.ok (foldl_putEntry_of_nodup hrules)

/-- A new entry for a rule gives new settings of the rule. -/
theorem put (h : RulesRead entries rules) {b : Builtin} {entry : Value} {settings : RuleSettings}
    (hentry : RuleSettings.read b.id entry = .ok settings) :
    RulesRead (Value.put entries (.text b.id) entry) (putEntry rules b settings) := by
  induction h with
  | nil => exact .cons (readRule_eq_ok_iff.2 ⟨rfl, hentry⟩) .nil
  | @cons old rule entries rules hread hrest ih =>
    obtain ⟨k, v⟩ := old
    obtain ⟨b', settings'⟩ := rule
    obtain ⟨hkey, -⟩ := readRule_eq_ok_iff.1 hread
    have hsame : k.same (.text b.id) = true ↔ b' = b := by
      rw [Value.same_text_iff, show k = .text b'.id from hkey, Value.text.injEq, Builtin.id_inj]
    rw [Value.put, putEntry]
    by_cases hb : b' = b
    · rw [if_pos (hsame.2 hb), if_pos (beq_iff_eq.2 hb)]
      exact .cons (readRule_eq_ok_iff.2 ⟨hkey.trans (by rw [hb]), hentry⟩) hrest
    · rw [if_neg (mt hsame.1 hb), if_neg (by simpa using hb)]
      exact .cons hread ih

end RulesRead

/-! ## Reading changed documents -/

theorem checkKeys_eq_ok_iff {entries : List (Value × Value)} :
    checkKeys entries = .ok () ↔
      ∀ entry ∈ entries, (sections.any fun s => entry.1.same (.text s)) = true := by
  simp only [checkKeys, List.isEmpty_iff, List.filter_eq_nil_iff, Bool.not_eq_true',
    Bool.not_eq_false]
  split
  · rename_i hnone
    exact iff_of_true rfl hnone
  · rename_i hsome
    exact iff_of_false (fun h => by cases h) hsome

theorem ofValue_of_readFrom {entries : List (Value × Value)} {c : Config}
    (h : ReadFrom (.mapping entries) c) : ofValue (.mapping entries) = .ok c := by
  have hkeys := h.keys
  have hroot := h.sourceRoot
  have haliases := h.aliases
  have hhierarchy := h.hierarchy
  have hexclude := h.exclude
  have hrules := h.rules
  simp only [Value.section?, Value.entries] at hkeys hroot haliases hhierarchy hexclude hrules
  simp only [ofValue, hkeys, hroot, haliases, hhierarchy, hexclude, hrules, bind, Except.bind]
  exact congrArg (fun output => Except.ok { c with output := output }) h.output

variable {v : Value} {c : Config}

theorem ReadFrom.withRules (h : ReadFrom v c) {entries : List (Value × Value)}
    {rules : List (Builtin × RuleSettings)}
    (hrules : readRules (some (.mapping entries)) = .ok rules) :
    ReadFrom (v.withRules entries) { c with rules := rules } where
  keys := by
    rw [checkKeys_eq_ok_iff]
    intro entry hentry
    rcases Value.key_of_mem_put hentry with hkey | ⟨old, hmem, hkey⟩
    · rw [hkey]
      decide
    · rw [← hkey]
      exact checkKeys_eq_ok_iff.1 h.keys old hmem
  sourceRoot := by rw [Value.section?_withRules]; exact h.sourceRoot
  aliases := by rw [Value.section?_withRules]; exact h.aliases
  hierarchy := by rw [Value.section?_withRules]; exact h.hierarchy
  exclude := by rw [Value.section?_withRules]; exact h.exclude
  output := by rw [Value.section?_withRules]; exact h.output
  rules := by rw [Value.section?_withRules]; exact hrules

theorem ReadFrom.rulesRead (h : ReadFrom v c) (hv : v.HasDistinctRules) :
    RulesRead v.ruleEntries c.rules ∧ (c.rules.map Prod.fst).Nodup := by
  have hrules := h.rules
  unfold Value.HasDistinctRules Value.ruleEntries at *
  cases hsection : v.section? "rules" with
  | none =>
    rw [hsection] at hrules
    rw [← Except.ok.inj hrules]
    exact ⟨.nil, List.nodup_nil⟩
  | some rules =>
    rw [hsection] at hrules hv
    cases rules with
    | null =>
      rw [← Except.ok.inj hrules]
      exact ⟨.nil, List.nodup_nil⟩
    | mapping entries =>
      obtain ⟨rules, hread, -⟩ := bind_eq_ok hrules
      have hread : RulesRead entries rules := mapM_eq_ok_iff.1 hread
      have hnodup := hread.nodup hv
      rw [hread.readRules_eq hnodup] at hrules
      rw [← Except.ok.inj hrules]
      exact ⟨hread, hnodup⟩
    | _ => cases hrules

/-- **One rule.** With a new entry for a rule the document is read as the configuration with new
settings of the rule. -/
theorem ofValue_withRule (hv : v.HasDistinctRules) (hc : ofValue v = .ok c) {b : Builtin}
    {entry : Value} {settings : RuleSettings}
    (hentry : RuleSettings.read b.id entry = .ok settings) :
    ofValue (v.withRule b entry) = .ok { c with rules := putEntry c.rules b settings } := by
  have hread := readFrom_of_ofValue hc
  obtain ⟨hrules, hnodup⟩ := hread.rulesRead hv
  exact ofValue_of_readFrom
    (hread.withRules ((hrules.put hentry).readRules_eq (nodup_keys_putEntry hnodup b settings)))

/-- **Another order.** With the entries for rules in another order the document is read as the
configuration with its settings in another order. -/
theorem exists_ofValue_withRules (hv : v.HasDistinctRules) (hc : ofValue v = .ok c)
    {order : List (Value × Value)} (horder : order.Perm v.ruleEntries) :
    ∃ rules, ofValue (v.withRules order) = .ok { c with rules := rules } ∧
      ∀ b, rules.lookup b = c.rules.lookup b := by
  have hread := readFrom_of_ofValue hc
  obtain ⟨hrules, hnodup⟩ := hread.rulesRead hv
  obtain ⟨rules, hread', hperm⟩ := List.perm_comp_forall₂ horder hrules
  have hrules' : RulesRead order rules := hread'
  exact ⟨rules, ofValue_of_readFrom
      (hread.withRules (hrules'.readRules_eq ((hperm.map Prod.fst).nodup_iff.2 hnodup))),
    lookup_eq_of_perm hnodup hperm⟩

end Config

end SliceLint
