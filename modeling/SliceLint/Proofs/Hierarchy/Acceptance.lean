import SliceLint.Proofs.Hierarchy.Cycle
import SliceLint.Proofs.Hierarchy.Direction
import SliceLint.Proofs.Path.Import
import SliceLint.Proofs.Table

/-!
# Which documents are hierarchies

A document is accepted as a hierarchy when it describes one: its keys are the names of the layers,
none is missing, its values are lists of such names or null, and no two layers lead to each other
(`Describes`, `exists_ofValue_mapping_iff`).

**Reading** (`Reads`, `ofValue_eq_ok_iff`). The table of an accepted hierarchy has one row for each
entry of the document, in the order of the document. Nothing but a text reads as the name of a
layer, so the rows have different layers where the entries have different keys.

**Cycles** (`isCyclic_graph_iff`). The graph of names that is searched for a cycle is cyclic when
the layers are.
-/

namespace SliceLint

/-! ## Names of layers -/

theorem Layer.isWord_name (l : Layer) : IsWord l.name := by
  cases l <;> decide

theorem Layer.name_of_ofName? {s : String} {l : Layer} (h : ofName? s = some l) : l.name = s := by
  rw [ofName?] at h
  simpa using List.find?_some h

/-- Only the text of its name reads as the name of a layer. -/
theorem Layer.ofName?_plain_eq_some_iff {v : Value} {l : Layer} :
    ofName? v.plain = some l ↔ v = .text l.name := by
  constructor
  · intro h
    exact Value.eq_text_of_plain l.isWord_name (name_of_ofName? h).symm
  · rintro rfl
    exact ofName?_name l

/-- The entries of a mapping have different keys. -/
def Value.HasDistinctKeys : Value → Prop
  | .mapping entries => entries.Pairwise fun x y => x.1.same y.1 = false
  | _ => True

namespace Hierarchy

open Relation (ReflTransGen)

/-! ## Reading entries -/

/-- A value that lists layers, and the layers it lists, each at its first place. -/
inductive ReadsTargets : Value → List Layer → Prop
  | null : ReadsTargets .null []
  | list (layers : List Layer) :
    ReadsTargets (.list (layers.map fun l => .text l.name)) layers.eraseDups

/-- An entry of a document, and the row of a table that it stands for. -/
structure Reads (entry : Value × Value) (row : Layer × List Layer) : Prop where
  key : entry.1 = .text row.1.name
  targets : ReadsTargets entry.2 row.2

theorem readTarget_eq_ok_iff {layer target : Layer} {v : Value} :
    readTarget layer v = .ok target ↔ v = .text target.name := by
  rw [← Layer.ofName?_plain_eq_some_iff, readTarget]
  cases Layer.ofName? v.plain <;> simp

theorem readTargets_list {layer : Layer} {items : List Value} {targets : List Layer} :
    readTargets layer (.list items) = .ok targets ↔
      ∃ layers : List Layer, items = layers.map (fun l => .text l.name) ∧
        targets = layers.eraseDups := by
  have hitems : ∀ layers : List Layer, items.mapM (readTarget layer) = .ok layers ↔
      items = layers.map fun l => .text l.name := fun layers => by
    rw [mapM_eq_ok_iff, ← List.forall₂_eq_eq_eq, List.forall₂_map_right_iff]
    simp only [readTarget_eq_ok_iff]
  rw [readTargets]
  constructor
  · intro h
    obtain ⟨layers, hlayers, rfl⟩ := map_eq_ok h
    exact ⟨layers, (hitems layers).1 hlayers, Text.distinct_eq_eraseDups layers⟩
  · rintro ⟨layers, hlayers, rfl⟩
    rw [(hitems layers).2 hlayers]
    exact congrArg Except.ok (Text.distinct_eq_eraseDups layers)

theorem readTargets_eq_ok_iff {layer : Layer} {v : Value} {targets : List Layer} :
    readTargets layer v = .ok targets ↔ ReadsTargets v targets := by
  constructor
  · intro h
    cases v with
    | null =>
      cases h
      exact .null
    | list items =>
      obtain ⟨layers, rfl, rfl⟩ := readTargets_list.1 h
      exact .list layers
    | _ => cases h
  · intro h
    cases h with
    | null => rfl
    | list layers => exact readTargets_list.2 ⟨layers, rfl, rfl⟩

theorem readEntry_eq_ok_iff {entry : Value × Value} {row : Layer × List Layer} :
    readEntry entry = .ok row ↔ Reads entry row := by
  constructor
  · intro h
    rw [readEntry] at h
    split at h
    · cases h
    · rename_i layer hlayer
      obtain ⟨targets, htargets, rfl⟩ := map_eq_ok h
      exact ⟨Layer.ofName?_plain_eq_some_iff.1 hlayer, readTargets_eq_ok_iff.1 htargets⟩
  · rintro ⟨hkey, htargets⟩
    rw [readEntry, Layer.ofName?_plain_eq_some_iff.2 hkey]
    exact congrArg (Except.map _) (readTargets_eq_ok_iff.2 htargets)

/-! ## Reading documents -/

variable {entries : List (Value × Value)} {rows : List (Layer × List Layer)}

theorem nodup_of_reads (hreads : List.Forall₂ Reads entries rows)
    (hkeys : entries.Pairwise fun x y => x.1.same y.1 = false) : (rows.map Prod.fst).Nodup :=
  nodup_of_named (hreads.imp fun _ _ hread => hread.key) hkeys

theorem put_eq_putEntry (table : List (Layer × List Layer)) (row : Layer × List Layer) :
    put table row = putEntry table row.1 row.2 := by
  induction table with
  | nil => rfl
  | cons first table ih => rw [put, putEntry, ih]

theorem foldl_put_of_nodup (h : (rows.map Prod.fst).Nodup) : rows.foldl put [] = rows := by
  have hput : put = fun table row => putEntry table row.1 row.2 := by
    funext table row
    exact put_eq_putEntry table row
  rw [hput]
  exact foldl_putEntry_of_nodup h

theorem checked_eq_ok_iff {h h' : Hierarchy} :
    checked h = .ok h' ↔
      h' = h ∧ (∀ l : Layer, l ∈ h.table.map Prod.fst) ∧ h.graph.findCycle = none := by
  have hall : ∀ l : Layer, l ∈ Layer.all := fun l => by cases l <;> decide
  have hmissing : (Layer.all.filter fun l => !(h.table.map (·.1)).contains l) = [] ↔
      ∀ l : Layer, l ∈ h.table.map Prod.fst := by
    simp only [List.filter_eq_nil_iff, Bool.not_eq_true', Bool.not_eq_false, List.contains_iff_mem]
    exact ⟨fun hl l => hl l (hall l), fun hl l _ => hl l⟩
  rw [checked]
  constructor
  · intro hchecked
    split at hchecked
    · rename_i hnone
      split at hchecked
      · cases hchecked
      · rename_i hcycle
        cases hchecked
        exact ⟨rfl, hmissing.1 hnone, hcycle⟩
    · cases hchecked
  · rintro ⟨rfl, hl, hcycle⟩
    rw [hmissing.2 hl, hcycle]

/-- Entries with different keys are read row by row, and all layers must be there without a
cycle. -/
theorem ofValue_eq_ok_iff (hkeys : entries.Pairwise fun x y => x.1.same y.1 = false)
    {h : Hierarchy} : ofValue (.mapping entries) = .ok h ↔
      List.Forall₂ Reads entries h.table ∧ (∀ l : Layer, l ∈ h.table.map Prod.fst) ∧
        ¬ h.graph.IsCyclic := by
  have hrows : ∀ rows, entries.mapM readEntry = .ok rows ↔ List.Forall₂ Reads entries rows :=
    fun rows => by
      rw [mapM_eq_ok_iff]
      simp only [readEntry_eq_ok_iff]
  rw [← Graph.findCycle_eq_none_iff]
  constructor
  · intro hread
    obtain ⟨rows, hmap, hchecked⟩ := bind_eq_ok hread
    have hreads := (hrows rows).1 hmap
    rw [foldl_put_of_nodup (nodup_of_reads hreads hkeys), checked_eq_ok_iff] at hchecked
    obtain ⟨rfl, hall, hcycle⟩ := hchecked
    exact ⟨hreads, hall, hcycle⟩
  · rintro ⟨hreads, hall, hcycle⟩
    have hchecked := checked_eq_ok_iff.2 ⟨rfl, hall, hcycle⟩
    rw [ofValue, (hrows _).2 hreads]
    change checked ⟨h.table.foldl put []⟩ = _
    rwa [foldl_put_of_nodup (nodup_of_reads hreads hkeys)]

/-! ## Cycles of layers -/

/-- A layer may import from another one, or from itself. -/
def Leads (h : Hierarchy) (source target : Layer) : Prop := target ∈ h.targets source

theorem edge_graph_iff {h : Hierarchy} {node target : String} :
    h.graph.Edge node target ↔
      ∃ a b : Layer, node = a.name ∧ target = b.name ∧ h.Leads a b := by
  constructor
  · intro hedge
    obtain ⟨row, hrow, hname⟩ := List.mem_map.1 (Graph.mem_keys_of_edge hedge)
    obtain ⟨row, -, rfl⟩ := List.mem_map.1 hrow
    subst hname
    rw [Graph.Edge, targets_graph] at hedge
    obtain ⟨b, hb, rfl⟩ := List.mem_map.1 hedge
    exact ⟨row.1, b, rfl, rfl, hb⟩
  · rintro ⟨a, b, rfl, rfl, hlead⟩
    rw [Graph.Edge, targets_graph]
    exact List.mem_map_of_mem hlead

/-- Whatever the name of a layer leads to is the name of a layer. -/
theorem exists_of_reaches {h : Hierarchy} {a : Layer} {node : String}
    (hway : ReflTransGen h.graph.Edge a.name node) :
    ∃ b : Layer, node = b.name ∧ ReflTransGen h.Leads a b := by
  induction hway with
  | refl => exact ⟨a, rfl, .refl⟩
  | tail _ hedge ih =>
    obtain ⟨b, rfl, hway⟩ := ih
    obtain ⟨b', c, hb, rfl, hlead⟩ := edge_graph_iff.1 hedge
    rw [Layer.name_injective hb] at hway
    exact ⟨c, rfl, hway.tail hlead⟩

theorem reaches_of_leads {h : Hierarchy} {a b : Layer} (hway : ReflTransGen h.Leads a b) :
    ReflTransGen h.graph.Edge a.name b.name :=
  hway.lift Layer.name fun _ _ hlead => edge_graph_iff.2 ⟨_, _, rfl, rfl, hlead⟩

theorem isCyclic_graph_iff {h : Hierarchy} : h.graph.IsCyclic ↔
    ∃ a b : Layer, a ≠ b ∧ ReflTransGen h.Leads a b ∧ ReflTransGen h.Leads b a := by
  constructor
  · rintro ⟨node, node', hne, hthere, hback⟩
    -- a node that leads to another one has an edge, and so is the name of a layer
    obtain ⟨next, hedge, -⟩ := hthere.cases_head.resolve_left hne
    obtain ⟨a, -, rfl, -, -⟩ := edge_graph_iff.1 hedge
    obtain ⟨b, rfl, hdown⟩ := exists_of_reaches hthere
    obtain ⟨a', ha, hup⟩ := exists_of_reaches hback
    rw [← Layer.name_injective ha] at hup
    exact ⟨a, b, fun heq => hne (congrArg Layer.name heq), hdown, hup⟩
  · rintro ⟨a, b, hne, hthere, hback⟩
    exact ⟨a.name, b.name, fun heq => hne (Layer.name_injective heq), reaches_of_leads hthere,
      reaches_of_leads hback⟩

/-! ## Accepted documents -/

/-- A document lists a layer among those that a layer may import from. -/
def Lists (entries : List (Value × Value)) (source target : Layer) : Prop :=
  ∃ items, (Value.text source.name, Value.list items) ∈ entries ∧ .text target.name ∈ items

/-- The entries of a document describe a hierarchy. -/
structure Describes (entries : List (Value × Value)) : Prop where
  known : ∀ entry ∈ entries, ∃ l : Layer, entry.1 = .text l.name
  complete : ∀ l : Layer, ∃ entry ∈ entries, entry.1 = .text l.name
  listed : ∀ entry ∈ entries, entry.2 = .null ∨
    ∃ layers : List Layer, entry.2 = .list (layers.map fun l => .text l.name)
  acyclic : ∀ a b, ReflTransGen (Lists entries) a b → ReflTransGen (Lists entries) b a → a = b

theorem exists_reads (hentries : Describes entries) : ∃ rows, List.Forall₂ Reads entries rows := by
  refine exists_forall₂ fun entry hentry => ?_
  obtain ⟨layer, hkey⟩ := hentries.known entry hentry
  rcases hentries.listed entry hentry with hnull | ⟨layers, hlist⟩
  · exact ⟨(layer, []), hkey, hnull ▸ .null⟩
  · exact ⟨(layer, layers.eraseDups), hkey, hlist ▸ .list layers⟩

theorem exists_key_iff (hreads : List.Forall₂ Reads entries rows) (l : Layer) :
    (∃ entry ∈ entries, entry.1 = .text l.name) ↔ l ∈ rows.map Prod.fst := by
  induction hreads with
  | nil => simp
  | cons hread _ ih =>
    rw [List.exists_mem_cons_iff, List.map_cons, List.mem_cons, ih, hread.key, Value.text.injEq,
      Layer.name_injective.eq_iff, eq_comm]

theorem ReadsTargets.listed {v : Value} {targets : List Layer} (h : ReadsTargets v targets) :
    v = .null ∨ ∃ layers : List Layer, v = .list (layers.map fun l => .text l.name) := by
  cases h with
  | null => exact Or.inl rfl
  | list layers => exact Or.inr ⟨layers, rfl⟩

theorem ReadsTargets.mem_iff {v : Value} {targets : List Layer} (h : ReadsTargets v targets)
    (l : Layer) : (∃ items, v = .list items ∧ .text l.name ∈ items) ↔ l ∈ targets := by
  cases h with
  | null => simp
  | list layers => simp [List.mem_eraseDups, Layer.name_injective.eq_iff]

theorem lists_iff {h : Hierarchy} (hreads : List.Forall₂ Reads entries h.table)
    (hnodup : (h.table.map Prod.fst).Nodup) (a b : Layer) : Lists entries a b ↔ h.Leads a b := by
  have hrow : h.Leads a b ↔ ∃ targets, (a, targets) ∈ h.table ∧ b ∈ targets := by
    rw [Leads, targets]
    simp only [← lookup_eq_some_iff_of_nodup hnodup]
    cases h.table.lookup a <;> simp
  rw [hrow]
  constructor
  · rintro ⟨items, hentry, hb⟩
    obtain ⟨⟨layer, targets⟩, hmem, hread⟩ := exists_of_mem_forall₂ hreads.flip hentry
    have hlayer : a = layer := Layer.name_injective (Value.text.inj hread.key)
    exact ⟨targets, hlayer ▸ hmem, (hread.targets.mem_iff b).1 ⟨items, rfl, hb⟩⟩
  · rintro ⟨targets, hmem, hb⟩
    obtain ⟨⟨key, value⟩, hentry, hread⟩ := exists_of_mem_forall₂ hreads hmem
    obtain ⟨items, rfl, hitems⟩ := (hread.targets.mem_iff b).2 hb
    obtain rfl : key = .text a.name := hread.key
    exact ⟨items, hentry, hitems⟩

theorem not_isCyclic_iff {h : Hierarchy} (hreads : List.Forall₂ Reads entries h.table)
    (hnodup : (h.table.map Prod.fst).Nodup) : ¬ h.graph.IsCyclic ↔
      ∀ a b, ReflTransGen (Lists entries) a b → ReflTransGen (Lists entries) b a → a = b := by
  have hleads : h.Leads = Lists entries := by
    funext a b
    exact propext (lists_iff hreads hnodup a b).symm
  rw [isCyclic_graph_iff, hleads]
  constructor
  · intro hcycle a b hthere hback
    by_contra hne
    exact hcycle ⟨a, b, hne, hthere, hback⟩
  · rintro hacyclic ⟨a, b, hne, hthere, hback⟩
    exact hne (hacyclic a b hthere hback)

/-- **Acceptance.** A mapping is accepted when it describes a hierarchy. -/
theorem exists_ofValue_mapping_iff (hkeys : entries.Pairwise fun x y => x.1.same y.1 = false) :
    (∃ h, ofValue (.mapping entries) = .ok h) ↔ Describes entries := by
  simp only [ofValue_eq_ok_iff hkeys]
  constructor
  · rintro ⟨h, hreads, hall, hcycle⟩
    have hnodup := nodup_of_reads hreads hkeys
    refine ⟨fun entry hentry => ?_, fun l => (exists_key_iff hreads l).2 (hall l),
      fun entry hentry => ?_, (not_isCyclic_iff hreads hnodup).1 hcycle⟩
    · obtain ⟨row, -, hread⟩ := exists_of_mem_forall₂ hreads.flip hentry
      exact ⟨row.1, hread.key⟩
    · obtain ⟨row, -, hread⟩ := exists_of_mem_forall₂ hreads.flip hentry
      exact hread.targets.listed
  · intro hentries
    obtain ⟨rows, hreads⟩ := exists_reads hentries
    have hnodup := nodup_of_reads hreads hkeys
    have hall := fun l => (exists_key_iff hreads l).1 (hentries.complete l)
    exact ⟨⟨rows⟩, hreads, hall, (not_isCyclic_iff hreads hnodup).2 hentries.acyclic⟩

/-- The search of a graph comes to an end with one answer, that there is no cycle when there is
none, and a cycle otherwise. A document is accepted as a hierarchy when it is a mapping that
describes one, and the table then has a row for each entry, in order. -/
theorem acyclic_accepted (g : Graph) {v : Value} (hkeys : v.HasDistinctKeys) :
    (∃ answer, (∀ answer', Graph.SearchAll g g.roots [] answer' ↔ answer' = answer) ∧
      g.findCycle = Graph.cycle? answer) ∧
    (g.findCycle = none ↔ ¬ g.IsCyclic) ∧
    (∀ cycle, g.findCycle = some cycle → g.IsCycle cycle) ∧
    ((∃ h, ofValue v = .ok h) ↔ ∃ entries, v = .mapping entries ∧ Describes entries) ∧
    ∀ h, ofValue v = .ok h →
      ∃ entries, v = .mapping entries ∧ List.Forall₂ Reads entries h.table := by
  refine ⟨Graph.searchAll_findCycle g, Graph.findCycle_eq_none_iff,
    fun cycle => Graph.isCycle_of_findCycle, ?_⟩
  cases v with
  | mapping entries =>
    refine ⟨?_, fun h hread => ⟨entries, rfl, ((ofValue_eq_ok_iff hkeys).1 hread).1⟩⟩
    rw [exists_ofValue_mapping_iff hkeys]
    simp
  | _ => exact ⟨by simp [ofValue], fun h hread => by cases hread⟩

theorem acyclic_accepted_standard :
    (Value.mapping standardEntries).HasDistinctKeys ∧ ¬ standard.graph.IsCyclic ∧
      Describes standardEntries := by
  have hkeys : (Value.mapping standardEntries).HasDistinctKeys := by
    unfold Value.HasDistinctKeys
    decide +kernel
  obtain ⟨-, hnone, -, haccepted, -⟩ := acyclic_accepted standard.graph hkeys
  obtain ⟨entries, heq, hdescribes⟩ := haccepted.1 ⟨standard, ofValue_standard⟩
  cases heq
  exact ⟨hkeys, hnone.1 findCycle_standard, hdescribes⟩

end Hierarchy

end SliceLint
