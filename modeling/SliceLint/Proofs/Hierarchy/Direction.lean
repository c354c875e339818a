import SliceLint.Config.HierarchyReading
import SliceLint.Proofs.Hierarchy.FinishOrder
import SliceLint.Proofs.Text.Order

/-!
# Hierarchies have a direction

A hierarchy that is accepted has no cycle between different layers. So its layers can be ranked
such that a layer may import only from lower layers and, where it is so written, from itself
(`Hierarchy.exists_rank`). The standard hierarchy is one that is accepted (`ofValue_standard`).
-/

namespace SliceLint

theorem Layer.name_injective : Function.Injective Layer.name := by
  intro l l' h
  cases l <;> cases l' <;> first | rfl | exact absurd h (by decide)

namespace Hierarchy

theorem findCycle_of_ofValue {v : Value} {h : Hierarchy} (hv : ofValue v = .ok h) :
    h.graph.findCycle = none := by
  unfold ofValue at hv
  split at hv
  · rename_i entries
    cases htable : entries.mapM readEntry with
    | error f =>
      rw [htable] at hv
      cases hv
    | ok table =>
      rw [htable] at hv
      have hchecked : checked ⟨table.foldl put []⟩ = .ok h := hv
      unfold checked at hchecked
      split at hchecked
      · split at hchecked
        · cases hchecked
        · cases hchecked
          assumption
      · cases hchecked
  · cases hv

theorem targets_graph (h : Hierarchy) (l : Layer) :
    h.graph.targets l.name = (h.targets l).map Layer.name := by
  obtain ⟨table⟩ := h
  unfold Graph.targets targets graph
  induction table with
  | nil => rfl
  | cons entry table ih =>
    obtain ⟨l', ts⟩ := entry
    rw [List.map_cons, List.lookup_cons, List.lookup_cons]
    by_cases hl : l = l'
    · subst hl
      simp
    · have hname : (l.name == l'.name) = false :=
        beq_eq_false_iff_ne.2 fun heq => hl (Layer.name_injective heq)
      rw [hname, beq_eq_false_iff_ne.2 hl]
      exact ih

theorem mem_keys_of_allows {h : Hierarchy} {source target : Layer}
    (hallows : h.allows source target = true) : source.name ∈ h.graph.map (·.1) := by
  have htarget := List.contains_iff_mem.1 hallows
  unfold targets at htarget
  cases hlookup : h.table.lookup source with
  | none =>
    rw [hlookup] at htarget
    exact absurd htarget List.not_mem_nil
  | some ts =>
    obtain ⟨before, after, hsplit, -⟩ := List.lookup_eq_some_iff.1 hlookup
    simp [graph, hsplit]

/-- **Direction.** The layers of an accepted hierarchy have ranks, and a layer may import from
another only if that has a lower rank. -/
theorem exists_rank {v : Value} {h : Hierarchy} (hv : ofValue v = .ok h) :
    ∃ rank : Layer → Nat, ∀ source target, source ≠ target → h.allows source target = true →
      rank target < rank source := by
  obtain ⟨order, hsettled, hall⟩ := Graph.exists_settled (findCycle_of_ofValue hv)
  refine ⟨fun l => Graph.rank order l.name, fun source target hne hallows => ?_⟩
  have hedge : target.name ∈ h.graph.targets source.name := by
    rw [targets_graph]
    exact List.mem_map_of_mem (List.contains_iff_mem.1 hallows)
  exact Graph.rank_lt hsettled (hall _ (mem_keys_of_allows hallows)) hedge
    fun heq => hne (Layer.name_injective heq).symm

/-! ## The standard hierarchy -/

theorem findCycle_standard : standard.graph.findCycle = none := by
  have hroots : Text.sorted (standard.graph.map (·.1)) =
      ["entities", "features", "pages", "shared", "widgets"] :=
    Text.sorted_eq_of_perm (by decide +kernel) (by decide +kernel)
  unfold Text.sorted at hroots
  unfold Graph.findCycle
  rw [hroots]
  decide +kernel

/-- The document that says what the standard hierarchy says. -/
def standardEntries : List (Value × Value) :=
  standard.table.map fun (l, ts) => (.text l.name, .list (ts.map fun t => .text t.name))

theorem ofValue_standard : ofValue (.mapping standardEntries) = .ok standard := by
  have htable : standardEntries.mapM readEntry = .ok standard.table := by decide +kernel
  have hchecked : checked standard = .ok standard := by
    unfold checked
    rw [findCycle_standard]
    rfl
  simp only [ofValue, htable, bind, Except.bind]
  exact hchecked

end Hierarchy

end SliceLint
