import SliceLint.Proofs.Hierarchy.FinishOrder
import SliceLint.Proofs.Text.Order
import Mathlib.Data.List.Chain

/-!
# The search for a cycle

**Cycles.** A graph is cyclic when two different nodes lead to each other (`IsCyclic`). A cycle is
written down from one of its nodes on and back to it, and has different nodes in between
(`IsCycle`); edges from a node to itself play no part.

**The search** (`Search`, `SearchAll`). The search step by step, with no bound on its depth: what it
does with each target of a node, and with each node to start from. It comes to an end, and the
bounded search has the same answer (`searchAll_findCycle`).

**Soundness** (`Search.isCycle`). The nodes on the path of the search differ and each leads to the
next. So a target on the path closes a cycle.

**Completeness** (`not_isCyclic_of_findCycle`). A search without a cycle leaves a rank for every
node that has targets. Along edges the rank falls, or the node stays the same, so that nodes that
lead to each other are the same.
-/

namespace SliceLint.Graph

variable {g : Graph}

/-! ## Cycles -/

/-- An edge leads from the one node to the other. -/
def Edge (g : Graph) (node target : String) : Prop := target ∈ g.targets node

/-- A cycle, written from one of its nodes on and back to it. -/
def IsCycle (g : Graph) (cycle : List String) : Prop :=
  ∃ first rest, cycle = first :: rest ++ [first] ∧ rest ≠ [] ∧ (first :: rest).Nodup ∧
    cycle.IsChain g.Edge

/-- Two different nodes lead to each other. -/
def IsCyclic (g : Graph) : Prop :=
  ∃ a b, a ≠ b ∧ Relation.ReflTransGen g.Edge a b ∧ Relation.ReflTransGen g.Edge b a

theorem IsCycle.isCyclic {cycle : List String} (h : g.IsCycle cycle) : g.IsCyclic := by
  obtain ⟨first, rest, rfl, hne, hnodup, hchain⟩ := h
  obtain ⟨second, rest, rfl⟩ := List.exists_cons_of_ne_nil hne
  have hdiffer : first ≠ second := by
    rintro rfl
    exact (List.nodup_cons.1 hnodup).1 List.mem_cons_self
  rw [List.cons_append, List.cons_append, List.isChain_cons_cons] at hchain
  refine ⟨first, second, hdiffer, .single hchain.1, ?_⟩
  exact List.relationReflTransGen_of_exists_isChain_cons _ hchain.2 (by simp)

/-! ## The search -/

/-- What comes of the targets of a node that are still to be looked at. The path leads to the node,
the latest node first, and some nodes are finished. The answer is a cycle, or the nodes that are
finished in the end, the node among them. -/
inductive Search (g : Graph) : List String → String → List String → List String →
    Except (List String) (List String) → Prop
  | finish (path : List String) (node : String) (done : List String) :
    Search g path node [] done (.ok (node :: done))
  | skip {path : List String} {node target : String} {targets done : List String}
      {answer : Except (List String) (List String)} (hskip : target = node ∨ target ∈ done)
      (hrest : Search g path node targets done answer) :
    Search g path node (target :: targets) done answer
  | close {path : List String} {node target : String} {done : List String} (targets : List String)
      (hskip : ¬(target = node ∨ target ∈ done)) (hopen : target ∈ node :: path) :
    Search g path node (target :: targets) done (.error (closed (node :: path) target))
  | found {path : List String} {node target : String} {done cycle : List String}
      (targets : List String) (hskip : ¬(target = node ∨ target ∈ done))
      (hopen : target ∉ node :: path)
      (hvisit : Search g (node :: path) target (g.targets target) done (.error cycle)) :
    Search g path node (target :: targets) done (.error cycle)
  | next {path : List String} {node target : String} {targets done done' : List String}
      {answer : Except (List String) (List String)} (hskip : ¬(target = node ∨ target ∈ done))
      (hopen : target ∉ node :: path)
      (hvisit : Search g (node :: path) target (g.targets target) done (.ok done'))
      (hrest : Search g path node targets done' answer) :
    Search g path node (target :: targets) done answer

/-- What comes of the nodes that are still to start from. -/
inductive SearchAll (g : Graph) : List String → List String →
    Except (List String) (List String) → Prop
  | finish (done : List String) : SearchAll g [] done (.ok done)
  | skip {root : String} {roots done : List String} {answer : Except (List String) (List String)}
      (hskip : root ∈ done) (hrest : SearchAll g roots done answer) :
    SearchAll g (root :: roots) done answer
  | found {root : String} {done cycle : List String} (roots : List String) (hskip : root ∉ done)
      (hvisit : Search g [] root (g.targets root) done (.error cycle)) :
    SearchAll g (root :: roots) done (.error cycle)
  | next {root : String} {roots done done' : List String}
      {answer : Except (List String) (List String)} (hskip : root ∉ done)
      (hvisit : Search g [] root (g.targets root) done (.ok done'))
      (hrest : SearchAll g roots done' answer) :
    SearchAll g (root :: roots) done answer

theorem Search.unique {path targets done : List String} {node : String}
    {answer answer' : Except (List String) (List String)}
    (h : Search g path node targets done answer) (h' : Search g path node targets done answer') :
    answer' = answer := by
  induction h generalizing answer' with
  | finish =>
    cases h' with
    | finish => rfl
  | skip hskip _ ih =>
    cases h' with
    | skip _ hrest => exact ih hrest
    | close _ hnot _ => exact absurd hskip hnot
    | found _ hnot _ _ => exact absurd hskip hnot
    | next hnot _ _ _ => exact absurd hskip hnot
  | close _ hskip hopen =>
    cases h' with
    | skip hpass _ => exact absurd hpass hskip
    | close => rfl
    | found _ _ hnot _ => exact absurd hopen hnot
    | next _ hnot _ _ => exact absurd hopen hnot
  | found _ hskip hopen _ ih =>
    cases h' with
    | skip hpass _ => exact absurd hpass hskip
    | close _ _ hclosed => exact absurd hclosed hopen
    | found _ _ _ hvisit => exact ih hvisit
    | next _ _ hvisit _ => cases ih hvisit
  | next hskip hopen _ _ ihvisit ihrest =>
    cases h' with
    | skip hpass _ => exact absurd hpass hskip
    | close _ _ hclosed => exact absurd hclosed hopen
    | found _ _ _ hvisit => cases ihvisit hvisit
    | next _ _ hvisit hrest =>
      cases ihvisit hvisit
      exact ihrest hrest

theorem SearchAll.unique {starts done : List String}
    {answer answer' : Except (List String) (List String)} (h : SearchAll g starts done answer)
    (h' : SearchAll g starts done answer') : answer' = answer := by
  induction h generalizing answer' with
  | finish =>
    cases h' with
    | finish => rfl
  | skip hskip _ ih =>
    cases h' with
    | skip _ hrest => exact ih hrest
    | found _ hnot _ => exact absurd hskip hnot
    | next hnot _ _ => exact absurd hskip hnot
  | found _ hskip hvisit =>
    cases h' with
    | skip hpass _ => exact absurd hpass hskip
    | found _ _ hvisit' => exact hvisit.unique hvisit'
    | next _ hvisit' _ => cases hvisit.unique hvisit'
  | next hskip hvisit _ ih =>
    cases h' with
    | skip hpass _ => exact absurd hpass hskip
    | found _ _ hvisit' => cases hvisit.unique hvisit'
    | next _ hvisit' hrest =>
      cases hvisit.unique hvisit'
      exact ih hrest

/-- The nodes to start from: those that have an entry, in the order of their names. -/
def roots (g : Graph) : List String := Text.sorted (g.map (·.1))

/-- The cycle in an answer, if there is one. -/
def cycle? : Except (List String) (List String) → Option (List String)
  | .ok _ => none
  | .error cycle => some cycle

/-! ## Depth -/

/-- What the loop over the targets of a node does with one of them. -/
def lookAt (g : Graph) (n : Nat) (path : List String) (node : String) (done : List String)
    (target : String) : Except (List String) (List String) :=
  if target == node || done.contains target then .ok done
  else if (node :: path).contains target then .error (closed (node :: path) target)
  else g.visit n (node :: path) done target

theorem visit_succ (n : Nat) (path done : List String) (node : String) :
    g.visit (n + 1) path done node =
      ((g.targets node).foldlM (g.lookAt n path node) done).map (node :: ·) := by
  rw [visit]
  change (g.targets node).foldlM (g.lookAt n path node) done >>= _ = _
  cases (g.targets node).foldlM (g.lookAt n path node) done <;> rfl

/-- The loop over the targets of a node goes as the search does, if its visits do. -/
theorem search_foldlM {n : Nat} {path targets : List String} {node : String}
    (hvisit : ∀ target ∈ targets, target ∉ node :: path → ∀ done,
      Search g (node :: path) target (g.targets target) done
        (g.visit n (node :: path) done target)) (done : List String) :
    Search g path node targets done
      ((targets.foldlM (g.lookAt n path node) done).map (node :: ·)) := by
  induction targets generalizing done with
  | nil => exact .finish path node done
  | cons target targets ih =>
    obtain ⟨htarget, htargets⟩ := List.forall_mem_cons.1 hvisit
    rw [List.foldlM_cons, lookAt]
    split
    · rename_i hskip
      rw [Bool.or_eq_true, beq_iff_eq, List.contains_iff_mem] at hskip
      exact .skip hskip (ih htargets done)
    · rename_i hskip
      rw [Bool.or_eq_true, beq_iff_eq, List.contains_iff_mem] at hskip
      split
      · rename_i hopen
        exact .close targets hskip (List.contains_iff_mem.1 hopen)
      · rename_i hopen
        rw [List.contains_iff_mem] at hopen
        have hsearch := htarget hopen done
        cases hanswer : g.visit n (node :: path) done target with
        | error cycle =>
          rw [hanswer] at hsearch
          exact .found targets hskip hopen hsearch
        | ok done' =>
          rw [hanswer] at hsearch
          exact .next hskip hopen hsearch (ih htargets done')

/-- A search that may nest deep enough goes on as without a bound: the nodes on the path differ, and
so there are no more of them than nodes. -/
theorem search_visit {n : Nat} {path : List String} {node : String} (hnodup : (node :: path).Nodup)
    (hnodes : node :: path ⊆ g.nodes) (hdepth : g.nodes.length ≤ n + path.length)
    (done : List String) :
    Search g path node (g.targets node) done (g.visit n path done node) := by
  induction n generalizing path done node with
  | zero =>
    have hlength := (hnodup.subperm hnodes).length_le
    rw [List.length_cons] at hlength
    omega
  | succ n ih =>
    rw [visit_succ]
    refine search_foldlM (fun target htarget hopen done => ?_) done
    refine ih (List.nodup_cons.2 ⟨hopen, hnodup⟩)
      (List.cons_subset.2 ⟨mem_nodes_of_mem_targets htarget, hnodes⟩) ?_ done
    rw [List.length_cons]
    omega

theorem searchAll_foldlM {starts : List String} (hstarts : starts ⊆ g.nodes) (done : List String) :
    SearchAll g starts done (starts.foldlM (fun done root =>
      if done.contains root then .ok done else g.visit (g.bound + 1) [] done root) done) := by
  induction starts generalizing done with
  | nil => exact .finish done
  | cons root starts ih =>
    obtain ⟨hroot, hstarts⟩ := List.cons_subset.1 hstarts
    rw [List.foldlM_cons]
    split
    · rename_i hskip
      exact .skip (List.contains_iff_mem.1 hskip) (ih hstarts done)
    · rename_i hskip
      rw [List.contains_iff_mem] at hskip
      have hsearch := search_visit (n := g.bound + 1) (List.nodup_singleton root)
        (List.cons_subset.2 ⟨hroot, List.nil_subset _⟩)
        (by rw [length_nodes]; exact Nat.le_succ _) done
      cases hanswer : g.visit (g.bound + 1) [] done root with
      | error cycle =>
        rw [hanswer] at hsearch
        exact .found starts hskip hsearch
      | ok done' =>
        rw [hanswer] at hsearch
        exact .next hskip hsearch (ih hstarts done')

/-- **The end.** The search from all nodes comes to an end, with the cycle that is found. -/
theorem searchAll_findCycle (g : Graph) : ∃ answer,
    (∀ answer', SearchAll g g.roots [] answer' ↔ answer' = answer) ∧
      g.findCycle = cycle? answer := by
  have hroots : g.roots ⊆ g.nodes := fun root hroot =>
    mem_nodes_of_mem_keys (Text.mem_sorted.1 hroot)
  have hsearch := searchAll_foldlM hroots []
  exact ⟨_, fun answer' => ⟨hsearch.unique, fun heq => heq ▸ hsearch⟩, rfl⟩

/-! ## Soundness -/

/-- A path of a search, the latest node first: different nodes, each leading to the next. -/
structure IsPath (g : Graph) (path : List String) : Prop where
  nodup : path.Nodup
  chain : path.IsChain fun target node => g.Edge node target

theorem IsPath.cons {path : List String} {node target : String} (h : g.IsPath (node :: path))
    (hedge : g.Edge node target) (hopen : target ∉ node :: path) :
    g.IsPath (target :: node :: path) :=
  ⟨List.nodup_cons.2 ⟨hopen, h.nodup⟩, List.isChain_cons_cons.2 ⟨hedge, h.chain⟩⟩

/-- An edge from the latest node back to another node of the path closes a cycle. -/
theorem IsPath.isCycle_closed {path : List String} {node target : String}
    (h : g.IsPath (node :: path)) (hedge : g.Edge node target) (hne : target ≠ node)
    (hopen : target ∈ node :: path) : g.IsCycle (closed (node :: path) target) := by
  obtain ⟨since, before, hsplit, hsince⟩ := List.eq_append_cons_of_mem hopen
  have htake : (node :: path).takeWhile (· != target) = since := by
    have hall : ∀ x ∈ since, (x != target) = true := fun x hx =>
      bne_iff_ne.2 fun heq => hsince (heq ▸ hx)
    rw [hsplit, List.takeWhile_append_of_pos hall, List.takeWhile_cons_of_neg (by simp),
      List.append_nil]
  have hstart : since ++ [target] <+: node :: path := ⟨before, by simp [hsplit]⟩
  have hnodup : since.Nodup := h.nodup.sublist ((List.prefix_append _ _).trans hstart).sublist
  -- between the target and the way back to it there is at least the latest node
  obtain ⟨since, rfl⟩ : ∃ rest, since = node :: rest := by
    cases since with
    | nil => exact absurd (List.cons.inj hsplit).1.symm hne
    | cons first since => exact ⟨since, by rw [(List.cons.inj hsplit).1]⟩
  refine ⟨target, (node :: since).reverse, ?_, by simp, ?_, ?_⟩
  · rw [closed, htake]
    simp
  · have hnew : target ∉ (node :: since).reverse := fun hmem => hsince (List.mem_reverse.1 hmem)
    exact List.nodup_cons.2 ⟨hnew, List.nodup_reverse.2 hnodup⟩
  · rw [closed, htake, List.isChain_reverse]
    exact List.isChain_cons_cons.2 ⟨hedge, h.chain.prefix hstart⟩

/-- **Soundness.** What a search answers is a cycle. -/
theorem Search.isCycle {path targets done cycle : List String} {node : String}
    {answer : Except (List String) (List String)} (h : Search g path node targets done answer)
    (hpath : g.IsPath (node :: path)) (htargets : targets ⊆ g.targets node)
    (hanswer : answer = .error cycle) : g.IsCycle cycle := by
  induction h with
  | finish => cases hanswer
  | skip _ _ ih => exact ih hpath (List.cons_subset.1 htargets).2 hanswer
  | close _ hskip hopen =>
    cases hanswer
    exact hpath.isCycle_closed (List.cons_subset.1 htargets).1 (fun heq => hskip (Or.inl heq)) hopen
  | found _ _ hopen _ ih =>
    exact ih (hpath.cons (List.cons_subset.1 htargets).1 hopen) (List.Subset.refl _) hanswer
  | next _ _ _ _ _ ih => exact ih hpath (List.cons_subset.1 htargets).2 hanswer

theorem SearchAll.isCycle {starts done cycle : List String}
    {answer : Except (List String) (List String)} (h : SearchAll g starts done answer)
    (hanswer : answer = .error cycle) : g.IsCycle cycle := by
  induction h with
  | finish => cases hanswer
  | skip _ _ ih => exact ih hanswer
  | @found root _ _ _ _ hvisit =>
    have hstart : g.IsPath [root] := ⟨List.nodup_singleton root, .singleton root⟩
    exact hvisit.isCycle hstart (List.Subset.refl _) hanswer
  | next _ _ _ ih => exact ih hanswer

theorem isCycle_of_findCycle {cycle : List String} (h : g.findCycle = some cycle) :
    g.IsCycle cycle := by
  obtain ⟨answer, hsearch, hanswer⟩ := searchAll_findCycle g
  rw [h] at hanswer
  cases answer with
  | ok done => cases hanswer
  | error cycle' =>
    cases hanswer
    exact ((hsearch _).2 rfl).isCycle rfl

/-! ## Completeness -/

theorem mem_keys_of_edge {node target : String} (h : g.Edge node target) :
    node ∈ g.map (·.1) := by
  unfold Edge targets at h
  cases hlookup : g.lookup node with
  | none =>
    rw [hlookup] at h
    exact absurd h List.not_mem_nil
  | some ts =>
    obtain ⟨front, back, hsplit, -⟩ := List.lookup_eq_some_iff.1 hlookup
    simp [hsplit]

/-- Where nodes are ranked, every way leads down or stays where it is. -/
theorem eq_or_rank_lt {order : List String} (h : Settled g order)
    (hall : ∀ node ∈ g.map (·.1), node ∈ order) {a b : String}
    (hway : Relation.ReflTransGen g.Edge a b) : a = b ∨ rank order b < rank order a := by
  induction hway with
  | refl => exact Or.inl rfl
  | @tail b c _ hedge ih =>
    by_cases hsame : c = b
    · rwa [hsame]
    · have hless := rank_lt h (hall b (mem_keys_of_edge hedge)) hedge hsame
      rcases ih with rfl | hbefore
      · exact Or.inr hless
      · exact Or.inr (hless.trans hbefore)

/-- **Completeness.** Where the search finds no cycle there is none. -/
theorem not_isCyclic_of_findCycle (h : g.findCycle = none) : ¬ g.IsCyclic := by
  rintro ⟨a, b, hne, hthere, hback⟩
  obtain ⟨order, hsettled, hall⟩ := exists_settled h
  have hdown := (eq_or_rank_lt hsettled hall hthere).resolve_left hne
  have hup := (eq_or_rank_lt hsettled hall hback).resolve_left (Ne.symm hne)
  exact absurd (hdown.trans hup) (Nat.lt_irrefl _)

theorem findCycle_eq_none_iff : g.findCycle = none ↔ ¬ g.IsCyclic := by
  refine ⟨not_isCyclic_of_findCycle, fun h => ?_⟩
  cases hcycle : g.findCycle with
  | none => rfl
  | some cycle => exact absurd (isCycle_of_findCycle hcycle).isCyclic h

end SliceLint.Graph
