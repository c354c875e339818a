import SliceLint.Config.Reading
import SliceLint.Proofs.Path.Import
import SliceLint.Proofs.Sequence

/-!
# What a configuration keeps of its document

**Sections** (`Config.readFrom_of_ofValue`). A configuration that was read comes section by section
from the entries of its document. A document that holds nothing is read like a mapping without
entries.

**Levels** (`Config.level?_settings`). A rule has the level that the document gives it
(`Value.levelOf?`): the last entry under its name counts.
-/

namespace SliceLint

/-- The entries of a document. -/
def Value.entries : Value → List (Value × Value)
  | .mapping entries => entries
  | _ => []

/-- What stands in a section of a document. -/
def Value.section? (v : Value) (name : String) : Option Value := find? v.entries name

namespace Config

/-! ## Sections -/

/-- The sections of a document that the configuration was read from. -/
structure ReadFrom (v : Value) (c : Config) : Prop where
  keys : checkKeys v.entries = .ok ()
  sourceRoot : readSourceRoot (v.section? "source_root") = .ok c.sourceRoot
  aliases : readAliases c.sourceRoot (v.section? "aliases") = .ok c.aliases
  hierarchy : readHierarchy (v.section? "layers") = .ok c.hierarchy
  exclude : readExclude (v.section? "exclude") = .ok c.exclude
  output : ((v.section? "output").map Value.plain).getD standard.output = c.output
  rules : readRules (v.section? "rules") = .ok c.rules

theorem readFrom_standard : ReadFrom .null standard where
  keys := rfl
  sourceRoot := by decide +kernel
  aliases := rfl
  hierarchy := rfl
  exclude := rfl
  output := rfl
  rules := rfl

theorem readFrom_of_ofValue {v : Value} {c : Config} (h : ofValue v = .ok c) : ReadFrom v c := by
  cases v with
  | null =>
    cases h
    exact readFrom_standard
  | mapping entries =>
    obtain ⟨_, hkeys, h⟩ := bind_eq_ok h
    obtain ⟨sourceRoot, hroot, h⟩ := bind_eq_ok h
    obtain ⟨aliases, haliases, h⟩ := bind_eq_ok h
    obtain ⟨hierarchy, hhierarchy, h⟩ := bind_eq_ok h
    obtain ⟨exclude, hexclude, h⟩ := bind_eq_ok h
    obtain ⟨rules, hrules, h⟩ := bind_eq_ok h
    cases h
    exact ⟨hkeys, hroot, haliases, hhierarchy, hexclude, rfl, hrules⟩
  | _ => cases h

namespace ReadFrom

variable {v : Value} {c : Config}

theorem isTrimmed (h : ReadFrom v c) : Path.IsTrimmed c.sourceRoot := by
  have hroot := h.sourceRoot
  simp only [readSourceRoot] at hroot
  split at hroot
  · cases hroot
  · rename_i hne
    rw [← Except.ok.inj hroot]
    exact Path.isTrimmed_trim fun heq => hne (beq_iff_eq.2 heq)

/-- Unless the document says otherwise, the aliases stand for the source root. -/
theorem aliases_eq (h : ReadFrom v c) (hnone : v.section? "aliases" = none) :
    c.aliases = standardAliases c.sourceRoot := by
  have haliases := h.aliases
  rw [hnone] at haliases
  exact (Except.ok.inj haliases).symm

end ReadFrom

end Config

/-! ## Levels -/

/-- The level that a value names by itself. -/
def Level.named? : Value → Option Level
  | .null => none
  | .bool b => if b then none else some .off
  | v => Level.ofWord? v.plain

/-- The level that the entry of a rule gives it. -/
def Level.ofEntry? : Value → Option Level
  | .mapping entries => (Value.find? entries "severity").bind named?
  | v => named? v

/-- The last value under a name. -/
def Value.lastUnder? (entries : List (Value × Value)) (name : String) : Option Value :=
  (entries.reverse.find? fun entry => entry.1.plain == name).map (·.2)

/-- The level that a document gives to a rule. -/
def Value.levelOf? (v : Value) (b : Builtin) : Option Level :=
  match v.section? "rules" with
  | some (.mapping entries) => (lastUnder? entries b.id).bind Level.ofEntry?
  | _ => none

namespace RuleSettings

theorem level?_of_readLevel {id : String} {v : Value} {level? : Option Level}
    (h : readLevel id v = .ok level?) : level? = Level.named? v := by
  unfold readLevel at h
  split at h
  · cases h
    rfl
  · cases h
    rfl
  · split at h
    · rename_i hword
      cases h
      simp_all [Level.named?]
    · cases h

theorem level?_of_read {id : String} {v : Value} {settings : RuleSettings}
    (h : read id v = .ok settings) : settings.level? = Level.ofEntry? v := by
  have hword : ∀ v, (readLevel id v).map (fun level? => RuleSettings.mk level? []) =
      .ok settings → settings.level? = Level.named? v := by
    intro v hread
    cases hlevel : readLevel id v with
    | error f =>
      rw [hlevel] at hread
      cases hread
    | ok level? =>
      rw [hlevel] at hread
      cases hread
      exact level?_of_readLevel hlevel
  cases v with
  | null =>
    cases h
    rfl
  | bool b => exact hword (.bool b) h
  | text s => exact hword (.text s) h
  | mapping entries =>
    cases hlevel : readLevel id ((Value.find? entries "severity").getD .null) with
    | error f =>
      rw [read, hlevel] at h
      cases h
    | ok level? =>
      rw [read, hlevel] at h
      cases h
      have hnamed := level?_of_readLevel hlevel
      rw [Level.ofEntry?]
      cases hfind : Value.find? entries "severity" with
      | none =>
        rw [hfind] at hnamed
        exact hnamed
      | some v =>
        rw [hfind] at hnamed
        exact hnamed
  | _ => cases h

end RuleSettings

/-! ## The rules of a configuration -/

theorem lookup_putEntry {α β : Type} [BEq α] [LawfulBEq α] (entries : List (α × β)) (key k : α)
    (value : β) :
    (putEntry entries key value).lookup k = if k == key then some value else entries.lookup k := by
  induction entries with
  | nil => cases hk : k == key <;> simp [putEntry, List.lookup_cons, hk]
  | cons entry rest ih =>
    obtain ⟨k', v⟩ := entry
    rw [putEntry]
    split
    · rename_i hkey
      rw [beq_iff_eq] at hkey
      subst hkey
      cases hk : k == k' <;> simp [List.lookup_cons, hk]
    · rename_i hkey
      rw [List.lookup_cons, ih, List.lookup_cons]
      cases hk : k == k' with
      | false => rfl
      | true =>
        have hne : (k == key) = false := by
          rw [beq_iff_eq] at hk
          simpa [hk] using hkey
        rw [hne]
        rfl

theorem lookup_foldl_putEntry {α β : Type} [BEq α] [LawfulBEq α] (puts kept : List (α × β)) (k : α) :
    (puts.foldl (fun kept (key, value) => putEntry kept key value) kept).lookup k =
      (puts.reverse.lookup k).or (kept.lookup k) := by
  induction puts generalizing kept with
  | nil => rfl
  | cons put puts ih =>
    obtain ⟨key, value⟩ := put
    have hput : (putEntry kept key value).lookup k =
        ([(key, value)].lookup k).or (kept.lookup k) := by
      rw [lookup_putEntry, List.lookup_cons]
      cases k == key <;> rfl
    rw [List.foldl_cons, ih, hput, List.reverse_cons, List.lookup_append, Option.or_assoc]

theorem Builtin.ofId?_eq_some_iff {id : String} {b : Builtin} : ofId? id = some b ↔ b.id = id := by
  constructor
  · intro h
    simpa using List.find?_some h
  · rintro rfl
    cases b <;> decide

theorem Builtin.id_inj {a b : Builtin} : a.id = b.id ↔ a = b := by
  refine ⟨fun h => ?_, congrArg id⟩
  have hof : some a = some b := (ofId?_eq_some_iff.2 rfl).symm.trans (ofId?_eq_some_iff.2 h.symm)
  exact Option.some.inj hof

namespace Config

theorem readRule_eq_ok {entry : Value × Value} {b : Builtin} {settings : RuleSettings}
    (h : readRule entry = .ok (b, settings)) :
    b.id = entry.1.plain ∧ settings.level? = Level.ofEntry? entry.2 := by
  unfold readRule at h
  split at h
  · cases h
  · rename_i b' hb'
    cases hread : RuleSettings.read b'.id entry.2 with
    | error f =>
      rw [hread] at h
      cases h
    | ok settings' =>
      rw [hread] at h
      cases h
      exact ⟨Builtin.ofId?_eq_some_iff.1 hb', RuleSettings.level?_of_read hread⟩

theorem level?_of_readRules {entries : List (Value × Value)}
    {rules : List (Builtin × RuleSettings)}
    (h : List.Forall₂ (fun entry rule => readRule entry = .ok rule) entries rules) (b : Builtin) :
    (rules.lookup b).bind RuleSettings.level? =
      ((entries.find? fun entry => entry.1.plain == b.id).map (·.2)).bind Level.ofEntry? := by
  induction h with
  | nil => rfl
  | @cons entry rule entries rules hread _ ih =>
    obtain ⟨b', settings⟩ := rule
    obtain ⟨hid, hlevel⟩ := readRule_eq_ok hread
    rw [List.lookup_cons, List.find?_cons, ← hid]
    by_cases hb : b = b'
    · subst hb
      simpa using hlevel
    · have hne : (b'.id == b.id) = false :=
        beq_eq_false_iff_ne.2 fun heq => hb (Builtin.id_inj.1 heq).symm
      rw [beq_eq_false_iff_ne.2 hb, hne]
      exact ih

/-- **Levels.** A rule has the level that the document gives it. -/
theorem level?_settings {v : Value} {c : Config} (h : ofValue v = .ok c) (b : Builtin) :
    (c.settings b).level? = v.levelOf? b := by
  have hrules := (readFrom_of_ofValue h).rules
  have hsettings : (c.settings b).level? = (c.rules.lookup b).bind RuleSettings.level? := by
    rw [settings]
    cases c.rules.lookup b <;> rfl
  rw [hsettings, Value.levelOf?]
  split
  · rename_i entries hsection
    rw [hsection] at hrules
    obtain ⟨rules, hread, hkept⟩ := bind_eq_ok hrules
    have hread := List.forall₂_reverse_iff.2 (mapM_eq_ok_iff.1 hread)
    rw [← Except.ok.inj hkept, lookup_foldl_putEntry, List.lookup_nil, Option.or_none]
    exact level?_of_readRules hread b
  · rename_i hsection
    cases hv : v.section? "rules" with
    | none =>
      rw [hv] at hrules
      rw [← Except.ok.inj hrules]
      rfl
    | some rules =>
      rw [hv] at hrules hsection
      cases rules with
      | null =>
        rw [← Except.ok.inj hrules]
        rfl
      | mapping entries => exact absurd rfl (hsection entries)
      | _ => cases hrules

end Config

end SliceLint
