import SliceLint.Proofs.Config.Acceptance
import SliceLint.Proofs.Path.Alias

/-!
# The normal form of a configuration

A configuration can be written as a document again (`Config.written`): its texts as they are, the
layers as the table of the hierarchy, and each rule as a mapping from its options and its level.

**Normal configurations** (`Config.IsNormal`, `ReadFrom.isNormal`). Whatever document a configuration
is read from, its tables have different keys, no layer is listed twice, no slash is at either end of
the source root and no option is called like the level.

**Reading back** (`Config.ofValue_written`). A normal configuration is read from the document that it
is written as. So a document is brought to its normal form by reading and writing it once
(`Config.normal_form`), and the normal configurations are those that some document stands for
(`Config.exists_ofValue_iff`).
-/

namespace SliceLint

/-! ## Mappings with texts as keys -/

namespace Value

/-- The mapping of a table whose keys are texts. -/
def keyed (table : List (String × Value)) : Value :=
  mapping (table.map fun (key, v) => (text key, v))

theorem find?_keyed (table : List (String × Value)) (name : String) :
    find? (keyed table).entries name = table.lookup name := by
  show find? (table.map fun (key, v) => (text key, v)) name = _
  induction table with
  | nil => rfl
  | cons row table ih =>
    obtain ⟨key, v⟩ := row
    have hsame : (text key).same (text name) = true ↔ name = key := by
      rw [same_text_iff, text.injEq, eq_comm]
    simp only [find?, List.map_cons, List.find?_cons, List.lookup_cons] at ih ⊢
    by_cases hname : name = key
    · rw [hsame.2 hname, beq_iff_eq.2 hname]
      rfl
    · rw [Bool.eq_false_iff.2 (mt hsame.1 hname), beq_eq_false_iff_ne.2 hname]
      exact ih

/-- To such a depth the mappings of a document have different keys. -/
def HasDistinctKeysTo : Nat → Value → Prop
  | 0, _ => True
  | n + 1, mapping entries => (entries.Pairwise fun x y => x.1.same y.1 = false) ∧
    ∀ entry ∈ entries, entry.2.HasDistinctKeysTo n
  | _ + 1, _ => True

theorem hasDistinctKeysTo_keyed {table : List (String × Value)} {n : Nat}
    (hkeys : (table.map Prod.fst).Nodup) (h : ∀ row ∈ table, row.2.HasDistinctKeysTo n) :
    (keyed table).HasDistinctKeysTo (n + 1) := by
  refine ⟨?_, ?_⟩
  · rw [List.pairwise_map]
    refine (List.pairwise_map.1 hkeys).imp ?_
    intro x y hne
    rw [← Bool.not_eq_true, same_text_iff, text.injEq]
    exact hne
  · intro entry hentry
    obtain ⟨row, hrow, rfl⟩ := List.mem_map.1 hentry
    exact h row hrow

end Value

/-! ## Writing -/

/-- The settings of a rule as a document: the options, and the level under its own key. -/
def RuleSettings.written (s : RuleSettings) : Value :=
  .keyed (s.options ++ s.level?.toList.map fun level => ("severity", .text level.name))

/-- The rows of a hierarchy by the names of the layers. -/
def Hierarchy.writtenRows (h : Hierarchy) : List (String × Value) :=
  h.table.map fun (layer, targets) =>
    (layer.name, .list (targets.map fun target => .text target.name))

/-- A hierarchy as a document. -/
def Hierarchy.written (h : Hierarchy) : Value := .keyed h.writtenRows

namespace Config

/-- Aliases as a document. -/
def writtenAliases (aliases : Aliases) : Value :=
  .keyed (aliases.map fun (lead, target) => (lead, .text target))

/-- The settings of the rules as a document. -/
def writtenRules (rules : List (Builtin × RuleSettings)) : Value :=
  .keyed (rules.map fun (b, settings) => (b.id, settings.written))

/-- The sections of a configuration as documents. -/
def writtenSections (c : Config) : List (String × Value) :=
  [("source_root", .text c.sourceRoot), ("aliases", writtenAliases c.aliases),
    ("layers", c.hierarchy.written), ("exclude", .list (c.exclude.map .text)),
    ("output", .text c.output), ("rules", writtenRules c.rules)]

/-- A configuration as a document. -/
def written (c : Config) : Value := .keyed c.writtenSections

/-- A configuration whose tables have different keys and which can be relied on. -/
structure IsNormal (c : Config) : Prop extends c.IsSound where
  prefixes : (c.aliases.map Prod.fst).Nodup
  rows : (c.hierarchy.table.map Prod.fst).Nodup
  targets : ∀ row ∈ c.hierarchy.table, row.2.Nodup
  rules : (c.rules.map Prod.fst).Nodup
  names : ∀ rule ∈ c.rules, (rule.2.options.map Prod.fst).Nodup

end Config

/-! ## Reading gives normal configurations -/

theorem Hierarchy.ReadsTargets.nodup {v : Value} {targets : List Layer}
    (h : ReadsTargets v targets) : targets.Nodup := by
  cases h with
  | null => exact List.nodup_nil
  | list layers =>
    show layers.eraseDups.Nodup
    rw [← Text.distinct_eq_eraseDups]
    exact Text.nodup_distinct layers

theorem Hierarchy.nodup_rows {v : Value} {h : Hierarchy} (hread : ofValue v = .ok h) :
    (h.table.map Prod.fst).Nodup ∧ ∀ row ∈ h.table, row.2.Nodup := by
  cases v with
  | mapping entries =>
    obtain ⟨rows, hrows, hchecked⟩ := bind_eq_ok hread
    obtain rfl := (checked_eq_ok_iff.1 hchecked).1
    have hput : put = fun table row => putEntry table row.1 row.2 := by
      funext table row
      exact put_eq_putEntry table row
    rw [hput]
    refine ⟨nodup_keys_foldl_putEntry Prod.fst Prod.snd rows List.nodup_nil, ?_⟩
    intro row hrow
    rcases mem_of_mem_foldl_putEntry hrow with hnil | ⟨row', hmem, rfl⟩
    · exact absurd hnil List.not_mem_nil
    · obtain ⟨entry, -, hentry⟩ := exists_of_mem_mapM hrows hmem
      exact (readEntry_eq_ok_iff.1 hentry).targets.nodup
  | _ => cases hread

theorem RuleSettings.nodup_optionsOf (entries : List (Value × Value)) :
    ((optionsOf entries).map Prod.fst).Nodup :=
  nodup_keys_foldl_putEntry (fun entry : Value × Value => entry.1.plain) Prod.snd _ List.nodup_nil

namespace Config

variable {v : Value} {c : Config}

theorem ReadFrom.nodup_rules (h : ReadFrom v c) : (c.rules.map Prod.fst).Nodup := by
  have hrules := h.rules
  unfold readRules at hrules
  split at hrules
  · rw [← Except.ok.inj hrules]
    exact List.nodup_nil
  · rw [← Except.ok.inj hrules]
    exact List.nodup_nil
  · obtain ⟨rows, -, hkept⟩ := bind_eq_ok hrules
    rw [← Except.ok.inj hkept]
    exact nodup_keys_foldl_putEntry Prod.fst Prod.snd rows List.nodup_nil
  · cases hrules

theorem ReadFrom.isNormal (h : ReadFrom v c) : c.IsNormal := by
  obtain ⟨layers, hlayers⟩ := h.exists_ofValue_hierarchy
  obtain ⟨hrows, htargets⟩ := Hierarchy.nodup_rows hlayers
  refine ⟨h.isSound, h.nodup_prefixes, hrows, htargets, h.nodup_rules, ?_⟩
  rintro ⟨b, settings⟩ hrule
  obtain ⟨⟨key, value⟩, -, hset⟩ := h.exists_setsBuiltin hrule
  cases hset with
  | level => exact List.nodup_nil
  | options => exact RuleSettings.nodup_optionsOf _

end Config

/-! ## Reading back -/

theorem Path.IsTrimmed.trim_eq {p : String} (h : IsTrimmed p) : Text.trim '/' p = p := by
  have hdrop : ∀ cs : List Char, cs.head? ≠ some '/' → cs.dropWhile (· == '/') = cs := by
    intro cs hcs
    cases cs with
    | nil => rfl
    | cons c cs => simp_all
  have hlast : p.toList.reverse.head? ≠ some '/' := by
    rw [List.head?_reverse]
    exact h.last
  rw [Text.trim, Text.trimList, hdrop _ h.head, hdrop _ hlast, List.reverse_reverse,
    String.ofList_toList]

theorem Level.setsLevel_name (level : Level) : Value.SetsLevel (.text level.name) (some level) := by
  refine .word ?_
  cases level <;> decide

namespace RuleSettings

theorem optionsOf_written {s : RuleSettings} (hnames : (s.options.map Prod.fst).Nodup)
    (hlevel : ∀ option ∈ s.options, option.1 ≠ "severity") :
    optionsOf s.written.entries = s.options := by
  have hother : ∀ name : String, (!(Value.text name).same (.text "severity")) = true ↔
      name ≠ "severity" := by
    intro name
    rw [Bool.not_eq_true', ← Bool.not_eq_true, Value.same_text_iff, Value.text.injEq]
  have hkept : s.written.entries.filter (fun entry => !entry.1.same (.text "severity")) =
      s.options.map fun option => (.text option.1, option.2) := by
    show List.filter _ (List.map _ (s.options ++ _)) = _
    rw [List.map_append, List.filter_append, List.filter_eq_self.2, List.filter_eq_nil_iff.2,
      List.append_nil]
    · intro entry hentry
      obtain ⟨row, hrow, rfl⟩ := List.mem_map.1 hentry
      obtain ⟨level, -, rfl⟩ := List.mem_map.1 hrow
      exact fun hne => (hother _).1 hne rfl
    · intro entry hentry
      obtain ⟨option, hoption, rfl⟩ := List.mem_map.1 hentry
      exact (hother _).2 (hlevel option hoption)
  rw [optionsOf, hkept, List.foldl_map]
  exact foldl_putEntry_of_nodup hnames

theorem setsLevel_written {s : RuleSettings} (hlevel : ∀ option ∈ s.options, option.1 ≠ "severity") :
    Value.SetsLevel ((Value.find? s.written.entries "severity").getD .null) s.level? := by
  have hnone : s.options.lookup "severity" = none := by
    rw [List.lookup_eq_none_iff]
    intro option hoption
    simpa using (hlevel option hoption).symm
  rw [written, Value.find?_keyed, List.lookup_append, hnone, Option.none_or]
  cases s.level? with
  | none => exact .null
  | some level => exact level.setsLevel_name

theorem hasDistinctKeysTo_written {s : RuleSettings} (hnames : (s.options.map Prod.fst).Nodup)
    (hlevel : ∀ option ∈ s.options, option.1 ≠ "severity") : s.written.HasDistinctKeysTo 1 := by
  refine Value.hasDistinctKeysTo_keyed ?_ fun _ _ => trivial
  rw [List.map_append, List.map_map, List.nodup_append]
  refine ⟨hnames, ?_, ?_⟩
  · cases s.level? <;> simp
  · intro name hname key hkey
    obtain ⟨option, hoption, rfl⟩ := List.mem_map.1 hname
    obtain ⟨level, -, rfl⟩ := List.mem_map.1 hkey
    exact hlevel option hoption

theorem read_written {s : RuleSettings} (id : String) (hnames : (s.options.map Prod.fst).Nodup)
    (hlevel : ∀ option ∈ s.options, option.1 ≠ "severity") : read id s.written = .ok s := by
  have hset := Value.SetsRule.options (setsLevel_written hlevel)
  rw [optionsOf_written hnames hlevel] at hset
  exact read_eq_ok_iff.2 hset

end RuleSettings

namespace Hierarchy

theorem reads_written (row : Layer × List Layer) (h : row.2.Nodup) :
    Reads (.text row.1.name, .list (row.2.map fun target => .text target.name)) row where
  key := rfl
  targets := by
    have htargets := ReadsTargets.list row.2
    rwa [← Text.distinct_eq_eraseDups, Text.distinct_eq_self h] at htargets

theorem nodup_names {h : Hierarchy} (hrows : (h.table.map Prod.fst).Nodup) :
    (h.writtenRows.map Prod.fst).Nodup := by
  have hnames := hrows.map Layer.name_injective
  rw [List.map_map] at hnames
  rwa [writtenRows, List.map_map]

theorem ofValue_written {h : Hierarchy} (hrows : (h.table.map Prod.fst).Nodup)
    (htargets : ∀ row ∈ h.table, row.2.Nodup) (hall : ∀ l : Layer, l ∈ h.table.map Prod.fst)
    (hcycle : ¬ h.graph.IsCyclic) : ofValue h.written = .ok h := by
  obtain ⟨hkeys, -⟩ : h.written.HasDistinctKeysTo 1 :=
    Value.hasDistinctKeysTo_keyed (nodup_names hrows) fun _ _ => trivial
  refine (ofValue_eq_ok_iff hkeys).2 ⟨?_, hall, hcycle⟩
  rw [writtenRows, List.map_map, List.forall₂_map_left_iff, List.forall₂_same]
  exact fun row hrow => reads_written row (htargets row hrow)

end Hierarchy

namespace Config

variable {v : Value} {c : Config}

theorem IsNormal.not_isCyclic (h : c.IsNormal) : ¬ c.hierarchy.graph.IsCyclic := by
  rw [Hierarchy.isCyclic_graph_iff]
  rintro ⟨a, b, hne, hthere, hback⟩
  exact hne (h.acyclic a b hthere hback)

theorem IsNormal.readAliases_written (h : c.IsNormal) :
    readAliases c.sourceRoot (some (writtenAliases c.aliases)) = .ok c.aliases := by
  refine readAliases_mapping.2 ⟨?_, ?_⟩
  · intro entry hentry
    rw [List.map_map] at hentry
    obtain ⟨row, hrow, rfl⟩ := List.mem_map.1 hentry
    intro heq
    exact h.aliases row hrow (Value.text.inj heq)
  · rw [List.map_map, List.foldl_map]
    exact foldl_putEntry_of_nodup h.prefixes

theorem IsNormal.readRules_written (h : c.IsNormal) :
    readRules (some (writtenRules c.rules)) = .ok c.rules := by
  refine RulesRead.readRules_eq ?_ h.rules
  rw [RulesRead, List.map_map, List.forall₂_map_left_iff, List.forall₂_same]
  intro rule hrule
  exact readRule_eq_ok_iff.2
    ⟨rfl, RuleSettings.read_written rule.1.id (h.names rule hrule) (h.options rule hrule)⟩

/-- **Reading back.** A normal configuration is read from the document that it is written as. -/
theorem ofValue_written (h : c.IsNormal) : ofValue c.written = .ok c := by
  have hfind : ∀ name, c.written.section? name = c.writtenSections.lookup name :=
    Value.find?_keyed c.writtenSections
  refine ofValue_of_readFrom ⟨?_, ?_, ?_, ?_, ?_, ?_, ?_⟩
  · rw [checkKeys_iff]
    intro entry hentry
    obtain ⟨⟨name, v⟩, hrow, rfl⟩ := List.mem_map.1 hentry
    have hname : name ∈ c.writtenSections.map Prod.fst := List.mem_map_of_mem hrow
    exact ⟨name, hname, rfl⟩
  · show readSourceRoot (c.written.section? "source_root") = _
    rw [hfind]
    show (if Text.trim '/' c.sourceRoot == "" then Except.error ConfigFault.emptySourceRoot
      else .ok (Text.trim '/' c.sourceRoot)) = .ok c.sourceRoot
    rw [h.sourceRoot.trim_eq, if_neg (by simpa using h.sourceRoot.ne_empty)]
  · show readAliases _ (c.written.section? "aliases") = _
    rw [hfind]
    exact h.readAliases_written
  · show readHierarchy (c.written.section? "layers") = _
    rw [hfind]
    show (Hierarchy.ofValue c.hierarchy.written).mapError _ = _
    rw [Hierarchy.ofValue_written h.rows h.targets h.layers h.not_isCyclic]
    rfl
  · show readExclude (c.written.section? "exclude") = _
    rw [hfind]
    show Except.ok ((c.exclude.map Value.text).map Value.plain) = _
    rw [List.map_map]
    exact congrArg Except.ok (List.map_id _)
  · show ((c.written.section? "output").map Value.plain).getD _ = _
    rw [hfind]
    rfl
  · show readRules (c.written.section? "rules") = _
    rw [hfind]
    exact h.readRules_written

theorem exists_ofValue_iff : (∃ v, ofValue v = .ok c) ↔ c.IsNormal := by
  constructor
  · rintro ⟨v, hv⟩
    exact (readFrom_of_ofValue hv).isNormal
  · intro h
    exact ⟨c.written, ofValue_written h⟩

/-! ## The normal form -/

/-- The document that a normal configuration is written as has different keys everywhere, down to
the options of the rules. -/
theorem IsNormal.hasDistinctKeysTo_written (h : c.IsNormal) : c.written.HasDistinctKeysTo 3 := by
  have hsections : (c.writtenSections.map Prod.fst).Nodup := by
    show sections.Nodup
    decide
  have haliases : (writtenAliases c.aliases).HasDistinctKeysTo 2 := by
    refine Value.hasDistinctKeysTo_keyed ?_ ?_
    · rw [List.map_map]
      exact h.prefixes
    · intro row hrow
      obtain ⟨entry, -, rfl⟩ := List.mem_map.1 hrow
      trivial
  have hlayers : c.hierarchy.written.HasDistinctKeysTo 2 := by
    refine Value.hasDistinctKeysTo_keyed (Hierarchy.nodup_names h.rows) ?_
    intro row hrow
    obtain ⟨entry, -, rfl⟩ := List.mem_map.1 hrow
    trivial
  have hrules : (writtenRules c.rules).HasDistinctKeysTo 2 := by
    refine Value.hasDistinctKeysTo_keyed ?_ ?_
    · have hids := h.rules.map (f := Builtin.id) fun _ _ => Builtin.id_inj.1
      rw [List.map_map] at hids ⊢
      exact hids
    · intro row hrow
      obtain ⟨rule, hrule, rfl⟩ := List.mem_map.1 hrow
      exact RuleSettings.hasDistinctKeysTo_written (h.names rule hrule) (h.options rule hrule)
  refine Value.hasDistinctKeysTo_keyed hsections ?_
  simp only [writtenSections, List.forall_mem_cons]
  exact ⟨trivial, haliases, hlayers, trivial, trivial, hrules, fun _ hnil => by cases hnil⟩

/-- **Normal form.** The configuration of an accepted document is normal. It is written as a
document, the normal form of the first, which is accepted again as the same configuration. -/
theorem normal_form (h : ofValue v = .ok c) :
    c.IsNormal ∧ c.written.HasDistinctKeysTo 3 ∧ ofValue c.written = .ok c := by
  have hnormal := (readFrom_of_ofValue h).isNormal
  exact ⟨hnormal, hnormal.hasDistinctKeysTo_written, ofValue_written hnormal⟩

/-- A document in other spellings than the normal ones. -/
def spelled : Value :=
  .mapping [(.text "source_root", .text "/app/"),
    (.text "aliases", .mapping [(.text "~/", .text "app/"), (.int 1, .int 2)]),
    (.text "layers", .mapping [(.text "pages", .list [.text "widgets", .text "widgets"]),
      (.text "widgets", .list [.text "shared"]), (.text "features", .null),
      (.text "entities", .null), (.text "shared", .null)]),
    (.text "exclude", .list [.text "*.d.ts", .int 3]),
    (.text "rules", .mapping [(.text Builtin.layerBoundary.id, .text "warn"),
      (.text Builtin.literalStyle.id, .bool false),
      (.text Builtin.componentShape.id,
        .mapping [(.text "max_lines", .int 3), (.text "severity", .bool true)])])]

/-- What the document stands for. -/
def unspelled : Config where
  sourceRoot := "app"
  aliases := [("~/", "app/"), ("1", "2")]
  hierarchy := ⟨[(.pages, [.widgets]), (.widgets, [.shared]), (.features, []), (.entities, []),
    (.shared, [])]⟩
  exclude := ["*.d.ts", "3"]
  output := "ruleResults.json"
  rules := [(.layerBoundary, ⟨some .warning, []⟩), (.literalStyle, ⟨some .off, []⟩),
    (.componentShape, ⟨none, [("max_lines", .int 3)]⟩)]

theorem normal_form_spelled :
    ofValue spelled = .ok unspelled ∧ unspelled.IsNormal ∧
      unspelled.written.HasDistinctKeysTo 3 ∧ ofValue unspelled.written = .ok unspelled := by
  have hcycle : unspelled.hierarchy.graph.findCycle = none := by
    have hroots : Text.sorted (unspelled.hierarchy.graph.map (·.1)) =
        ["entities", "features", "pages", "shared", "widgets"] :=
      Text.sorted_eq_of_perm (by decide +kernel) (by decide +kernel)
    unfold Text.sorted at hroots
    unfold Graph.findCycle
    rw [hroots]
    decide +kernel
  have hlayers : Hierarchy.ofValue (.mapping [
      (.text "pages", .list [.text "widgets", .text "widgets"]),
      (.text "widgets", .list [.text "shared"]), (.text "features", .null),
      (.text "entities", .null), (.text "shared", .null)]) = .ok unspelled.hierarchy := by
    show Hierarchy.checked unspelled.hierarchy = _
    rw [Hierarchy.checked_eq_ok_iff]
    exact ⟨rfl, by rintro ⟨⟩ <;> decide, hcycle⟩
  have hread : ofValue spelled = .ok unspelled := by
    refine ofValue_of_readFrom ⟨rfl, by decide +kernel, rfl, ?_, rfl, rfl, rfl⟩
    show (Hierarchy.ofValue _).mapError ConfigFault.hierarchy = .ok unspelled.hierarchy
    exact congrArg (Except.mapError _) hlayers
  exact ⟨hread, normal_form hread⟩

end Config

end SliceLint
