import SliceLint.Proofs.Config.Settings
import SliceLint.Proofs.Hierarchy.Acceptance

/-!
# Which documents are configurations

**Acceptance** (`Config.exists_ofValue_mapping_iff`). A mapping is accepted when every section that
it has is in order (`Config.Describes`). Sections do not depend on each other: what is missing is
filled in, and only the aliases are filled in from another section.

**Soundness** (`Config.ReadFrom.isSound`). What is read from a document is a configuration that the
checks can rely on (`Config.IsSound`).
-/

namespace SliceLint

/-! ## Levels -/

/-- The words for levels. -/
def Level.words : List (String × Level) :=
  [("error", .error), ("warning", .warning), ("warn", .warning), ("off", .off)]

theorem Level.ofWord?_eq_some_iff {word : String} {level : Level} :
    ofWord? word = some level ↔ (word, level) ∈ words := by
  constructor
  · intro h
    unfold ofWord? at h
    split at h <;> cases h <;> decide
  · simp only [words, List.mem_cons, List.not_mem_nil, or_false, Prod.mk.injEq]
    rintro (⟨rfl, rfl⟩ | ⟨rfl, rfl⟩ | ⟨rfl, rfl⟩ | ⟨rfl, rfl⟩) <;> rfl

theorem Level.isWord {word : String} {level : Level} (h : (word, level) ∈ words) : IsWord word := by
  have hwords : ∀ entry ∈ words, IsWord entry.1 := by decide
  exact hwords _ h

namespace Value

/-- A value that sets a level, or leaves it as it is. -/
inductive SetsLevel : Value → Option Level → Prop
  | null : SetsLevel .null none
  | on : SetsLevel (.bool true) none
  | off : SetsLevel (.bool false) (some .off)
  | word {word : String} {level : Level} (h : (word, level) ∈ Level.words) :
    SetsLevel (.text word) (some level)

/-- A value that sets a rule: by its level alone, or by a mapping that may have one. -/
inductive SetsRule : Value → RuleSettings → Prop
  | level {v : Value} {level? : Option Level} (h : v.SetsLevel level?) : SetsRule v ⟨level?, []⟩
  | options {entries : List (Value × Value)} {level? : Option Level}
    (h : ((find? entries "severity").getD .null).SetsLevel level?) :
    SetsRule (.mapping entries) ⟨level?, RuleSettings.optionsOf entries⟩

end Value

namespace RuleSettings

theorem readLevel_eq_ok_iff {id : String} {v : Value} {level? : Option Level} :
    readLevel id v = .ok level? ↔ v.SetsLevel level? := by
  constructor
  · intro h
    unfold readLevel at h
    split at h
    · cases h
      exact .null
    · rename_i b
      cases h
      cases b
      · exact .off
      · exact .on
    · split at h
      · rename_i level hlevel
        cases h
        rw [Level.ofWord?_eq_some_iff] at hlevel
        rw [Value.eq_text_of_plain (Level.isWord hlevel) rfl]
        exact .word hlevel
      · cases h
  · rintro (_ | _ | _ | h)
    · rfl
    · rfl
    · rfl
    · rw [readLevel, Value.plain, Level.ofWord?_eq_some_iff.2 h]
      · intro heq
        cases heq
      · intro b heq
        cases heq

theorem read_eq_ok_iff {id : String} {v : Value} {settings : RuleSettings} :
    read id v = .ok settings ↔ v.SetsRule settings := by
  constructor
  · intro h
    unfold read at h
    split at h
    · obtain ⟨level?, hlevel, rfl⟩ := map_eq_ok h
      exact .options (readLevel_eq_ok_iff.1 hlevel)
    · cases h
      exact .level .null
    · obtain ⟨level?, hlevel, rfl⟩ := map_eq_ok h
      exact .level (readLevel_eq_ok_iff.1 hlevel)
    · obtain ⟨level?, hlevel, rfl⟩ := map_eq_ok h
      exact .level (readLevel_eq_ok_iff.1 hlevel)
    · cases h
  · intro h
    cases h with
    | level h =>
      cases h with
      | word h =>
        rw [read, readLevel_eq_ok_iff.2 (.word h)]
        rfl
      | _ => rfl
    | options h =>
      rw [read, readLevel_eq_ok_iff.2 h]
      rfl

theorem ne_severity_of_mem_optionsOf {entries : List (Value × Value)} {option : String × Value}
    (h : option ∈ optionsOf entries) : option.1 ≠ "severity" := by
  rcases mem_of_mem_foldl_putEntry h with h | ⟨entry, hentry, rfl⟩
  · exact absurd h List.not_mem_nil
  · intro hname
    obtain ⟨key, value⟩ := entry
    obtain rfl : key = .text "severity" := Value.eq_text_of_plain (by decide) hname
    have hother : (!Value.same (.text "severity") (.text "severity")) = true :=
      (List.mem_filter.1 hentry).2
    exact absurd hother (by decide)

end RuleSettings

theorem Hierarchy.checked_of_ofValue {v : Value} {h : Hierarchy} (hread : ofValue v = .ok h) :
    checked h = .ok h := by
  cases v with
  | mapping entries =>
    obtain ⟨rows, -, hchecked⟩ := bind_eq_ok hread
    obtain rfl := (checked_eq_ok_iff.1 hchecked).1
    exact hchecked
  | _ => cases hread

namespace Config

open Relation (ReflTransGen)

/-! ## Sections -/

theorem exists_readSourceRoot_iff {v? : Option Value} :
    (∃ root, readSourceRoot v? = .ok root) ↔
      ∀ v, v? = some v → ∃ c ∈ v.plain.toList, c ≠ '/' := by
  cases v? with
  | none => exact iff_of_true ⟨_, readFrom_standard.sourceRoot⟩ (by simp)
  | some v =>
    have htrim : (∃ c ∈ v.plain.toList, c ≠ '/') ↔ ¬ Text.trim '/' v.plain = "" := by
      simp [Text.trim_eq_empty_iff]
    simp only [Option.some.injEq, forall_eq', htrim, readSourceRoot, Option.map_some,
      Option.getD_some, beq_iff_eq]
    split
    · rename_i hempty
      exact iff_of_false (by simp) fun hne => hne hempty
    · rename_i hne
      exact iff_of_true ⟨_, rfl⟩ hne

theorem readAliases_mapping {entries : List (Value × Value)} {sourceRoot : String}
    {aliases : Aliases} : readAliases sourceRoot (some (.mapping entries)) = .ok aliases ↔
      (∀ entry ∈ entries, entry.1 ≠ .text "") ∧
        entries.foldl (fun kept entry => putEntry kept entry.1.plain entry.2.plain) [] =
          aliases := by
  rw [readAliases]
  generalize ([] : Aliases) = kept
  induction entries generalizing kept with
  | nil => simp [pure, Except.pure]
  | cons entry entries ih =>
    obtain ⟨key, value⟩ := entry
    have hkey : (key.plain == "") = true ↔ key = .text "" := by
      rw [beq_iff_eq, Value.plain_eq_empty_iff]
    rw [List.foldlM_cons, List.foldl_cons, List.forall_mem_cons]
    dsimp only
    by_cases hempty : key = .text ""
    · rw [if_pos (hkey.2 hempty)]
      refine iff_of_false (fun h => ?_) fun h => h.1.1 hempty
      cases h
    · rw [if_neg (mt hkey.1 hempty)]
      exact (ih _).trans (and_congr_left' (and_iff_right hempty).symm)

theorem exists_readAliases_iff {v? : Option Value} (sourceRoot : String) :
    (∃ aliases, readAliases sourceRoot v? = .ok aliases) ↔ ∀ v, v? = some v →
      ∃ prefixes, v = .mapping prefixes ∧ ∀ entry ∈ prefixes, entry.1 ≠ .text "" := by
  cases v? with
  | none => exact iff_of_true ⟨_, rfl⟩ (by simp)
  | some v =>
    simp only [Option.some.injEq, forall_eq']
    cases v with
    | mapping entries => simp [readAliases_mapping]
    | _ => simp [readAliases]

theorem exists_readHierarchy_iff {v? : Option Value} :
    (∃ h, readHierarchy v? = .ok h) ↔ ∀ v, v? = some v → ∃ h, Hierarchy.ofValue v = .ok h := by
  cases v? with
  | none => exact iff_of_true ⟨_, rfl⟩ (by simp)
  | some v =>
    simp only [Option.some.injEq, forall_eq', readHierarchy]
    cases Hierarchy.ofValue v with
    | error fault => simp [Except.mapError]
    | ok h => simp [Except.mapError]

theorem exists_readExclude_iff {v? : Option Value} :
    (∃ patterns, readExclude v? = .ok patterns) ↔ ∀ v, v? = some v → ∃ items, v = .list items := by
  cases v? with
  | none => exact iff_of_true ⟨_, rfl⟩ (by simp)
  | some v =>
    simp only [Option.some.injEq, forall_eq']
    cases v with
    | list items => exact iff_of_true ⟨_, rfl⟩ ⟨items, rfl⟩
    | _ => simp [readExclude]

/-- An entry sets a built-in rule. -/
def SetsBuiltin (entry : Value × Value) (rule : Builtin × RuleSettings) : Prop :=
  entry.1 = .text rule.1.id ∧ entry.2.SetsRule rule.2

theorem readRule_iff_setsBuiltin {entry : Value × Value} {rule : Builtin × RuleSettings} :
    readRule entry = .ok rule ↔ SetsBuiltin entry rule :=
  readRule_eq_ok_iff.trans (and_congr_right' RuleSettings.read_eq_ok_iff)

theorem exists_readRules_iff {v? : Option Value} :
    (∃ rules, readRules v? = .ok rules) ↔ ∀ v, v? = some v → v = .null ∨
      ∃ entries, v = .mapping entries ∧ ∀ entry ∈ entries, ∃ rule, SetsBuiltin entry rule := by
  cases v? with
  | none => exact iff_of_true ⟨_, rfl⟩ (by simp)
  | some v =>
    simp only [Option.some.injEq, forall_eq']
    cases v with
    | null => exact iff_of_true ⟨_, rfl⟩ (.inl rfl)
    | mapping entries =>
      constructor
      · rintro ⟨rules, hrules⟩
        obtain ⟨rows, hrows, -⟩ := bind_eq_ok hrules
        refine .inr ⟨entries, rfl, fun entry hentry => ?_⟩
        obtain ⟨rule, -, hread⟩ := exists_of_mem_forall₂ (mapM_eq_ok_iff.1 hrows).flip hentry
        exact ⟨rule, readRule_iff_setsBuiltin.1 hread⟩
      · rintro (h | ⟨_, heq, hentries⟩)
        · cases h
        · cases heq
          obtain ⟨rows, hrows⟩ := exists_forall₂ fun entry hentry =>
            (hentries entry hentry).imp fun _ => readRule_iff_setsBuiltin.2
          rw [readRules, mapM_eq_ok_iff.2 hrows]
          exact ⟨_, rfl⟩
    | _ => simp [readRules]

/-! ## Documents -/

/-- The entries of a document describe a configuration. -/
structure Describes (entries : List (Value × Value)) : Prop where
  known : ∀ entry ∈ entries, ∃ name ∈ sections, entry.1 = .text name
  sourceRoot : ∀ v, Value.find? entries "source_root" = some v → ∃ c ∈ v.plain.toList, c ≠ '/'
  aliases : ∀ v, Value.find? entries "aliases" = some v →
    ∃ prefixes, v = .mapping prefixes ∧ ∀ entry ∈ prefixes, entry.1 ≠ .text ""
  hierarchy : ∀ v, Value.find? entries "layers" = some v → ∃ h, Hierarchy.ofValue v = .ok h
  exclude : ∀ v, Value.find? entries "exclude" = some v → ∃ items, v = .list items
  rules : ∀ v, Value.find? entries "rules" = some v → v = .null ∨
    ∃ settings, v = .mapping settings ∧ ∀ entry ∈ settings, ∃ rule, SetsBuiltin entry rule

theorem checkKeys_iff {entries : List (Value × Value)} : checkKeys entries = .ok () ↔
    ∀ entry ∈ entries, ∃ name ∈ sections, entry.1 = .text name := by
  simp only [checkKeys_eq_ok_iff, List.any_eq_true, Value.same_text_iff]

theorem exists_ofValue_mapping_iff {entries : List (Value × Value)} :
    (∃ c, ofValue (.mapping entries) = .ok c) ↔ Describes entries := by
  constructor
  · rintro ⟨c, hc⟩
    obtain ⟨hkeys, hroot, haliases, hhierarchy, hexclude, -, hrules⟩ := readFrom_of_ofValue hc
    exact {
      known := checkKeys_iff.1 hkeys
      sourceRoot := exists_readSourceRoot_iff.1 ⟨_, hroot⟩
      aliases := (exists_readAliases_iff _).1 ⟨_, haliases⟩
      hierarchy := exists_readHierarchy_iff.1 ⟨_, hhierarchy⟩
      exclude := exists_readExclude_iff.1 ⟨_, hexclude⟩
      rules := exists_readRules_iff.1 ⟨_, hrules⟩ }
  · intro h
    obtain ⟨sourceRoot, hroot⟩ := exists_readSourceRoot_iff.2 h.sourceRoot
    obtain ⟨aliases, haliases⟩ := (exists_readAliases_iff sourceRoot).2 h.aliases
    obtain ⟨hierarchy, hhierarchy⟩ := exists_readHierarchy_iff.2 h.hierarchy
    obtain ⟨exclude, hexclude⟩ := exists_readExclude_iff.2 h.exclude
    obtain ⟨rules, hrules⟩ := exists_readRules_iff.2 h.rules
    exact ⟨⟨sourceRoot, aliases, hierarchy, exclude, _, rules⟩, ofValue_of_readFrom
      ⟨checkKeys_iff.2 h.known, hroot, haliases, hhierarchy, hexclude, rfl, hrules⟩⟩

/-! ## Configurations -/

/-- What the checks rely on in a configuration. -/
structure IsSound (c : Config) : Prop where
  sourceRoot : Path.IsTrimmed c.sourceRoot
  aliases : ∀ entry ∈ c.aliases, entry.1 ≠ ""
  layers : ∀ l : Layer, l ∈ c.hierarchy.table.map Prod.fst
  acyclic : ∀ a b, ReflTransGen c.hierarchy.Leads a b → ReflTransGen c.hierarchy.Leads b a → a = b
  ids : ∀ rule ∈ c.rules, rule.1.id ∈ Builtin.ids
  levels : ∀ rule ∈ c.rules,
    rule.2.level?.map Level.name ∈ [none, some "error", some "warning", some "off"]
  options : ∀ rule ∈ c.rules, ∀ option ∈ rule.2.options, option.1 ≠ "severity"

namespace ReadFrom

variable {v : Value} {c : Config}

theorem aliases_ne_empty (h : ReadFrom v c) : ∀ entry ∈ c.aliases, entry.1 ≠ "" := by
  have haliases := h.aliases
  cases hsection : v.section? "aliases" with
  | none =>
    rw [h.aliases_eq hsection]
    simp [standardAliases, standardPrefixes]
  | some value =>
    rw [hsection] at haliases
    cases value with
    | mapping prefixes =>
      obtain ⟨hkeys, hfold⟩ := readAliases_mapping.1 haliases
      intro entry hentry
      rw [← hfold] at hentry
      rcases mem_of_mem_foldl_putEntry hentry with hentry | ⟨old, hold, rfl⟩
      · exact absurd hentry List.not_mem_nil
      · exact mt Value.plain_eq_empty_iff.1 (hkeys old hold)
    | _ => cases haliases

/-- The hierarchy is one that was read, the standard one if there is no other. -/
theorem exists_ofValue_hierarchy (h : ReadFrom v c) :
    ∃ layers, Hierarchy.ofValue layers = .ok c.hierarchy := by
  have hhierarchy := h.hierarchy
  cases hsection : v.section? "layers" with
  | none =>
    rw [hsection] at hhierarchy
    rw [← Except.ok.inj hhierarchy]
    exact ⟨_, Hierarchy.ofValue_standard⟩
  | some layers =>
    rw [hsection, readHierarchy] at hhierarchy
    cases hread : Hierarchy.ofValue layers with
    | error fault =>
      rw [hread] at hhierarchy
      cases hhierarchy
    | ok hierarchy =>
      rw [hread] at hhierarchy
      rw [← Except.ok.inj hhierarchy]
      exact ⟨layers, hread⟩

theorem exists_setsBuiltin (h : ReadFrom v c) {rule : Builtin × RuleSettings}
    (hrule : rule ∈ c.rules) : ∃ entry, SetsBuiltin entry rule := by
  have hrules := h.rules
  have hmem : ∀ rules, (.ok rules : Except ConfigFault _) = .ok c.rules → rule ∈ rules := by
    rintro rules ⟨⟩
    exact hrule
  cases hsection : v.section? "rules" with
  | none =>
    rw [hsection] at hrules
    exact absurd (hmem [] hrules) List.not_mem_nil
  | some value =>
    rw [hsection] at hrules
    cases value with
    | null => exact absurd (hmem [] hrules) List.not_mem_nil
    | mapping entries =>
      obtain ⟨rows, hrows, hkept⟩ := bind_eq_ok hrules
      rcases mem_of_mem_foldl_putEntry (hmem _ hkept) with hnil | ⟨row, hrow, rfl⟩
      · exact absurd hnil List.not_mem_nil
      · obtain ⟨entry, -, hread⟩ := exists_of_mem_mapM hrows hrow
        exact ⟨entry, readRule_iff_setsBuiltin.1 hread⟩
    | _ => cases hrules

theorem isSound (h : ReadFrom v c) : c.IsSound where
  sourceRoot := h.isTrimmed
  aliases := h.aliases_ne_empty
  layers := by
    obtain ⟨layers, hread⟩ := h.exists_ofValue_hierarchy
    exact (Hierarchy.checked_eq_ok_iff.1 (Hierarchy.checked_of_ofValue hread)).2.1
  acyclic := by
    obtain ⟨layers, hread⟩ := h.exists_ofValue_hierarchy
    obtain ⟨-, -, hnone⟩ := Hierarchy.checked_eq_ok_iff.1 (Hierarchy.checked_of_ofValue hread)
    rw [Graph.findCycle_eq_none_iff, Hierarchy.isCyclic_graph_iff] at hnone
    intro a b hthere hback
    by_contra hne
    exact hnone ⟨a, b, hne, hthere, hback⟩
  ids := by
    have hall : ∀ b : Builtin, b ∈ Builtin.all := by
      rintro ⟨⟩ <;> decide
    exact fun rule _ => Text.mem_sorted.2 (List.mem_map_of_mem (hall rule.1))
  levels := by
    have hnames : ∀ level? : Option Level,
        level?.map Level.name ∈ [none, some "error", some "warning", some "off"] := by
      rintro (_ | _ | _ | _) <;> decide
    exact fun rule _ => hnames rule.2.level?
  options := by
    rintro ⟨b, settings⟩ hrule option hoption
    obtain ⟨⟨key, value⟩, -, hset⟩ := h.exists_setsBuiltin hrule
    cases hset with
    | level => exact absurd hoption List.not_mem_nil
    | options => exact RuleSettings.ne_severity_of_mem_optionsOf hoption

end ReadFrom

/-- A document is accepted when it holds nothing or describes a configuration, and refused with a
fault otherwise. What is accepted can be relied on. -/
theorem ofValue_accepts (v : Value) :
    ((∃ c, ofValue v = .ok c) ↔ v = .null ∨ ∃ entries, v = .mapping entries ∧ Describes entries) ∧
      ((∃ fault, ofValue v = .error fault) ↔
        ¬ (v = .null ∨ ∃ entries, v = .mapping entries ∧ Describes entries)) ∧
      ∀ c, ofValue v = .ok c → c.IsSound := by
  have haccepted : (∃ c, ofValue v = .ok c) ↔
      v = .null ∨ ∃ entries, v = .mapping entries ∧ Describes entries := by
    cases v with
    | null => exact iff_of_true ⟨standard, rfl⟩ (.inl rfl)
    | mapping entries =>
      rw [exists_ofValue_mapping_iff]
      simp
    | _ => simp [ofValue]
  refine ⟨haccepted, ?_, fun c hc => (readFrom_of_ofValue hc).isSound⟩
  rw [← haccepted]
  cases ofValue v with
  | error fault => simp
  | ok c => simp

end Config

end SliceLint
