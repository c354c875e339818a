import SliceLint.Hierarchy
import Mathlib.Data.List.Nodup
import Mathlib.Data.List.Perm.Subperm

/-!
# What a search without a cycle leaves behind

A depth-first search that meets no cycle finishes every node, and each node after all targets of
its edges but itself. So the nodes as they were finished are in an order in which every edge to
another node leads backwards (`Settled`), and a node can be ranked by when it was finished
(`rank_lt`).

**Depth.** The search nests no deeper than there are nodes, since the nodes of a path differ from
each other. The bound on the depth is never reached.
-/

namespace SliceLint.Graph

variable {g : Graph}

/-! ## Nodes -/

/-- The nodes of a graph, with repetitions. -/
def nodes (g : Graph) : List String := g.flatMap fun entry => entry.1 :: entry.2

theorem length_nodes (g : Graph) : g.nodes.length = g.bound := by
  have hloop : ∀ n, g.foldl (fun n entry => n + 1 + entry.2.length) n =
      n + g.nodes.length := by
    induction g with
    | nil => intro n; rfl
    | cons entry g ih =>
      intro n
      rw [List.foldl_cons, ih]
      simp only [nodes, List.flatMap_cons, List.length_append, List.length_cons]
      omega
  rw [← Nat.zero_add g.nodes.length]
  exact (hloop 0).symm

theorem mem_nodes_of_mem_targets {node target : String} (h : target ∈ g.targets node) :
    target ∈ g.nodes := by
  unfold targets at h
  cases hlookup : g.lookup node with
  | none =>
    rw [hlookup] at h
    exact absurd h List.not_mem_nil
  | some ts =>
    rw [hlookup] at h
    obtain ⟨before, after, hsplit, -⟩ := List.lookup_eq_some_iff.1 hlookup
    refine List.mem_flatMap.2 ⟨(node, ts), ?_, List.mem_cons_of_mem _ h⟩
    rw [hsplit]
    exact List.mem_append_right _ List.mem_cons_self

theorem mem_nodes_of_mem_keys {node : String} (h : node ∈ g.map (·.1)) : node ∈ g.nodes := by
  obtain ⟨entry, hentry, rfl⟩ := List.mem_map.1 h
  exact List.mem_flatMap.2 ⟨entry, hentry, List.mem_cons_self⟩

/-! ## Finish order -/

/-- Every edge of a finished node leads to the node itself or to one finished before. The latest
node stands first. -/
def Settled (g : Graph) : List String → Prop
  | [] => True
  | node :: before => (∀ target ∈ g.targets node, target = node ∨ target ∈ before) ∧
    Settled g before

theorem Settled.mem_of_edge {order : List String} (h : Settled g order) {node target : String}
    (hnode : node ∈ order) (htarget : target ∈ g.targets node) (hne : target ≠ node) :
    target ∈ order := by
  induction order with
  | nil => exact absurd hnode List.not_mem_nil
  | cons latest before ih =>
    rcases List.mem_cons.1 hnode with rfl | hnode
    · exact List.mem_cons_of_mem _ ((h.1 target htarget).resolve_left hne)
    · exact List.mem_cons_of_mem _ (ih h.2 hnode)

/-- What a step of the search keeps: finished nodes stay finished and settled, and the node that
the step is about is finished or passed over. -/
theorem settled_foldlM (passed : String → Prop)
    {step : List String → String → Except (List String) (List String)}
    {xs done finished : List String}
    (hstep : ∀ x ∈ xs, ∀ done done', Settled g done → step done x = .ok done' →
      Settled g done' ∧ done ⊆ done' ∧ (passed x ∨ x ∈ done'))
    (hdone : Settled g done) (h : xs.foldlM step done = .ok finished) :
    Settled g finished ∧ done ⊆ finished ∧ ∀ x ∈ xs, passed x ∨ x ∈ finished := by
  induction xs generalizing done with
  | nil =>
    cases h
    exact ⟨hdone, List.Subset.refl _, fun x hx => absurd hx List.not_mem_nil⟩
  | cons x xs ih =>
    rw [List.foldlM_cons] at h
    cases hx : step done x with
    | error cycle =>
      rw [hx] at h
      cases h
    | ok next =>
      rw [hx] at h
      obtain ⟨hnext, hsub, hcovered⟩ := hstep x List.mem_cons_self done next hdone hx
      obtain ⟨hfinished, hsub', hrest⟩ :=
        ih (fun y hy => hstep y (List.mem_cons_of_mem _ hy)) hnext h
      refine ⟨hfinished, fun y hy => hsub' (hsub hy), List.forall_mem_cons.2 ⟨?_, hrest⟩⟩
      exact hcovered.imp_right fun hy => hsub' hy

/-- **One node.** A search from a node that meets no cycle finishes the node. The path to it is one
of different nodes, and the nesting that is left covers the nodes that are not on the path. -/
theorem settled_visit {n : Nat} {path done finished : List String} {node : String}
    (hnodup : (node :: path).Nodup) (hnodes : node :: path ⊆ g.nodes)
    (hdepth : g.nodes.length ≤ n + path.length) (hdone : Settled g done)
    (h : g.visit n path done node = .ok finished) :
    Settled g finished ∧ done ⊆ finished ∧ node ∈ finished := by
  induction n generalizing path done finished node with
  | zero =>
    have hlength := (hnodup.subperm hnodes).length_le
    rw [List.length_cons] at hlength
    omega
  | succ n ih =>
    rw [visit] at h
    simp only [bind, Except.bind] at h
    split at h
    · cases h
    · rename_i before hloop
      cases h
      have htargets := settled_foldlM (g := g) (fun target => target = node)
        (fun target htarget done done' hdone hstep => ?_) hdone hloop
      · obtain ⟨hbefore, hsub, hcovered⟩ := htargets
        exact ⟨⟨hcovered, hbefore⟩, fun x hx => List.mem_cons_of_mem _ (hsub hx),
          List.mem_cons_self⟩
      · split at hstep
        · rename_i hpassed
          cases hstep
          rw [Bool.or_eq_true, beq_iff_eq, List.contains_iff_mem] at hpassed
          exact ⟨hdone, List.Subset.refl _, hpassed⟩
        · split at hstep
          · cases hstep
          · rename_i hopen
            rw [List.contains_iff_mem] at hopen
            have hdeeper : g.nodes.length ≤ n + (node :: path).length := by
              rw [List.length_cons]
              omega
            have hin : target :: node :: path ⊆ g.nodes :=
              List.cons_subset.2 ⟨mem_nodes_of_mem_targets htarget, hnodes⟩
            obtain ⟨hdone', hsub, hmem⟩ :=
              ih (List.nodup_cons.2 ⟨hopen, hnodup⟩) hin hdeeper hdone hstep
            exact ⟨hdone', hsub, Or.inr hmem⟩

/-- **All nodes.** A search that meets no cycle settles every node that has an entry. -/
theorem exists_settled (h : g.findCycle = none) :
    ∃ order, Settled g order ∧ ∀ node ∈ g.map (·.1), node ∈ order := by
  simp only [findCycle] at h
  split at h
  · rename_i order hloop
    have hnone : Settled g [] := trivial
    have hroots := settled_foldlM (fun _ => False)
      (fun root hroot done done' hdone hstep => ?_) hnone hloop
    · obtain ⟨horder, -, hcovered⟩ := hroots
      refine ⟨order, horder, fun node hnode => ?_⟩
      exact (hcovered node (List.mem_mergeSort.2 hnode)).resolve_left id
    · split at hstep
      · rename_i hpassed
        cases hstep
        exact ⟨hdone, List.Subset.refl _, Or.inr (List.contains_iff_mem.1 hpassed)⟩
      · have hin : root ∈ g.nodes := mem_nodes_of_mem_keys (List.mem_mergeSort.1 hroot)
        have hdepth : g.nodes.length ≤ g.bound + 1 + ([] : List String).length := by
          rw [length_nodes]
          exact Nat.le_succ _
        obtain ⟨hdone', hsub, hmem⟩ := settled_visit (List.nodup_singleton root)
          (List.cons_subset.2 ⟨hin, List.nil_subset _⟩) hdepth hdone hstep
        exact ⟨hdone', hsub, Or.inr hmem⟩
  · cases h

/-! ## Ranks -/

/-- The number of nodes that were finished before a node was finished for the last time, and the
node itself; zero for a node that was not. -/
def rank : List String → String → Nat
  | [], _ => 0
  | latest :: before, node =>
    if node ∈ before then rank before node
    else if node = latest then before.length + 1
    else 0

theorem rank_le_length (order : List String) (node : String) : rank order node ≤ order.length := by
  induction order with
  | nil => exact Nat.le_refl 0
  | cons latest before ih =>
    rw [rank, List.length_cons]
    split_ifs <;> omega

/-- **Ranks.** An edge to another node leads to a lower rank. -/
theorem rank_lt {order : List String} (h : Settled g order) {node target : String}
    (hnode : node ∈ order) (htarget : target ∈ g.targets node) (hne : target ≠ node) :
    rank order target < rank order node := by
  induction order with
  | nil => exact absurd hnode List.not_mem_nil
  | cons latest before ih =>
    by_cases hbefore : node ∈ before
    · have hmem : target ∈ before := h.2.mem_of_edge hbefore htarget hne
      rw [rank, rank, if_pos hbefore, if_pos hmem]
      exact ih h.2 hbefore
    · obtain rfl := (List.mem_cons.1 hnode).resolve_right hbefore
      have hmem : target ∈ before := (h.1 target htarget).resolve_left hne
      rw [rank, rank, if_pos hmem, if_neg hbefore, if_pos rfl]
      exact Nat.lt_succ_of_le (rank_le_length before target)

end SliceLint.Graph
