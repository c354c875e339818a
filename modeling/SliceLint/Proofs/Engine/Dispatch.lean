import SliceLint.Proofs.Engine.Failure
import SliceLint.Proofs.Source.Preorder

/-!
# Which rules are called, and when

The calls over a file are prepared: a table has the subscribers of each kind of node, a worklist
gives the nodes, and together they make a schedule of what is due.

**Plain order** (`plainTrace`). The tree is gone through by recursion. At each node the rules are
asked in order whether they subscribe to its kind, and those that do are called; after the last node
every rule is called once more. A rule whose name has failed is passed over. The trace of a file has
the same calls (`traceOf_eq_plainTrace`).

**Slots** (`Slot`). A rule is known by its place among the rules and a node by its address, so two
rules that are equal, or two nodes that look alike, are still told apart. In the schedule the slots
come in order, each slot once and none left out (`forall₂_slotsOf`). What is called are the tasks of
some of the slots, and a slot is left out only after a failure (`exists_made`).
-/

namespace SliceLint

/-! ## The plain order -/

namespace Progress

/-- Call at a node the rules that subscribe to its kind, in order. -/
def meet (rules : List Rule) (ctx : FileContext) (p : Progress) (v : Visit) : Progress :=
  rules.foldl (fun p r => if r.kinds.contains v.node.kind then p.next ctx (r, .node v) else p) p

mutual

/-- Meet a node, and then its named children one after the other, each with all that is below. -/
def explore (rules : List Rule) (ctx : FileContext) (ancestors : List Tree) (p : Progress) :
    Tree → Progress
  | .node l cs =>
    exploreAll rules ctx (.node l cs :: ancestors) (p.meet rules ctx ⟨.node l cs, ancestors⟩) cs

/-- Explore the named ones among several trees. -/
def exploreAll (rules : List Rule) (ctx : FileContext) (ancestors : List Tree) (p : Progress) :
    List Tree → Progress
  | [] => p
  | t :: ts =>
    exploreAll rules ctx ancestors (if t.named then explore rules ctx ancestors p t else p) ts

end

/-- Call every rule at the end of the file. -/
def leave (rules : List Rule) (ctx : FileContext) (p : Progress) : Progress :=
  rules.foldl (fun p r => p.next ctx (r, .exit)) p

theorem meet_eq (rules : List Rule) (ctx : FileContext) (p : Progress) (v : Visit) :
    p.meet rules ctx v = (((Subscriptions.ofRules rules).subscribers v.node.kind).map fun r =>
      (r, Occasion.node v)).foldl (next ctx) p := by
  rw [Subscriptions.subscribers_ofRules, List.foldl_map, List.foldl_filter, meet]

theorem exploreAll_eq {rules : List Rule} {ctx : FileContext} {ts : List Tree}
    (h : ∀ t ∈ ts, ∀ ancestors p,
      explore rules ctx ancestors p t = (t.preorder ancestors).foldl (meet rules ctx) p)
    (ancestors : List Tree) (p : Progress) :
    exploreAll rules ctx ancestors p ts =
      (Tree.preorderAll ancestors ts).foldl (meet rules ctx) p := by
  induction ts generalizing p with
  | nil => rfl
  | cons t ts ih =>
    obtain ⟨ht, hts⟩ := List.forall_mem_cons.1 h
    rw [exploreAll, ih hts, Tree.preorderAll, List.foldl_append]
    split
    · rw [ht]
    · rfl

theorem explore_eq (rules : List Rule) (ctx : FileContext) (t : Tree) : ∀ ancestors p,
    explore rules ctx ancestors p t = (t.preorder ancestors).foldl (meet rules ctx) p := by
  induction t using Tree.induction_children with
  | h label children ih =>
    intro ancestors p
    rw [explore, exploreAll_eq ih, Tree.preorder, List.foldl_cons]

end Progress

/-- The calls made over a file with a tree, node by node. -/
def plainTrace (rules : List Rule) (ctx : FileContext) (tree : Tree) : List Call :=
  ((Progress.explore rules ctx [] .start tree).leave rules ctx).calls.reverse

/-- **Plain order.** The schedule leads to the calls of the plain order. -/
theorem traceOf_eq_plainTrace (rules : List Rule) (ctx : FileContext) (tree : Tree) :
    traceOf rules ctx tree = plainTrace rules ctx tree := by
  have hnodes : Progress.meet rules ctx = fun p v =>
      (((Subscriptions.ofRules rules).subscribers v.node.kind).map fun r =>
        (r, Occasion.node v)).foldl (Progress.next ctx) p :=
    funext fun p => funext fun v => Progress.meet_eq rules ctx p v
  rw [traceOf, plainTrace, schedule, List.foldl_append, List.foldl_flatMap, List.foldl_map,
    Progress.explore_eq, hnodes, Tree.walk_eq_preorder]
  rfl

/-! ## Slots -/

/-- A rule, known by its place among the rules, and where it is due: at the node with an address,
or at the end of the file. -/
structure Slot where
  rule : Nat
  address? : Option (List Nat)
deriving DecidableEq, Repr

namespace Slot

/-- The task of a slot: the rule subscribes to the kind of the node, or the file is at its end. -/
inductive Holds (rules : List Rule) (tree : Tree) : Slot → Rule × Occasion → Prop
  | node {i : Nat} {r : Rule} {address : List Nat} {v : Visit} (hrule : rules[i]? = some r)
    (hnode : (⟨tree, []⟩ : Visit).follow? address = some v) (hkind : v.node.kind ∈ r.kinds) :
    Holds rules tree ⟨i, some address⟩ (r, .node v)
  | exit {i : Nat} {r : Rule} (hrule : rules[i]? = some r) :
    Holds rules tree ⟨i, none⟩ (r, .exit)

/-- Slots at earlier nodes come first, at one node those of earlier rules, and at last those at the
end of the file. -/
def Before (s s' : Slot) : Prop :=
  match s.address?, s'.address? with
  | some a, some a' => a < a' ∨ a = a' ∧ s.rule < s'.rule
  | some _, none => True
  | none, some _ => False
  | none, none => s.rule < s'.rule

theorem not_before_self (s : Slot) : ¬ s.Before s := by
  obtain ⟨i, address?⟩ := s
  cases address? with
  | none => exact Nat.lt_irrefl i
  | some a =>
    rintro (h | ⟨-, h⟩)
    · exact List.lt_irrefl a h
    · exact Nat.lt_irrefl i h

end Slot

/-- The places of the rules that meet a condition. -/
def placesOf (p : Rule → Bool) (rules : List Rule) : List Nat :=
  (rules.zipIdx.filter fun entry => p entry.1).map Prod.snd

section Places

variable (p : Rule → Bool) (rules : List Rule)

theorem mem_placesOf {i : Nat} : i ∈ placesOf p rules ↔ ∃ r, rules[i]? = some r ∧ p r = true := by
  simp only [placesOf, List.mem_map, List.mem_filter, Prod.exists, List.mk_mem_zipIdx_iff_getElem?,
    exists_eq_right]

theorem pairwise_placesOf : (placesOf p rules).Pairwise (· < ·) := by
  have hall : (rules.zipIdx.map Prod.snd).Pairwise (· < ·) := by
    rw [List.zipIdx_map_snd]
    exact List.pairwise_lt_range'
  exact hall.sublist ((List.filter_sublist).map Prod.snd)

theorem forall₂_placesOf :
    List.Forall₂ (fun i r => rules[i]? = some r ∧ p r = true) (placesOf p rules)
      (rules.filter p) := by
  have hrules : rules.filter p = (rules.zipIdx.filter fun entry => p entry.1).map Prod.fst := by
    conv_lhs => rw [← List.zipIdx_map_fst 0 rules, List.filter_map]
    rfl
  rw [placesOf, hrules, List.forall₂_map_left_iff, List.forall₂_map_right_iff, List.forall₂_same]
  rintro ⟨r, i⟩ hentry
  obtain ⟨hentry, hp⟩ := List.mem_filter.1 hentry
  exact ⟨List.mk_mem_zipIdx_iff_getElem?.1 hentry, hp⟩

end Places

/-- The slots over a file, in order. -/
def slotsOf (rules : List Rule) (tree : Tree) : List Slot :=
  (tree.addresses.flatMap fun address =>
    match (⟨tree, []⟩ : Visit).follow? address with
    | some v =>
      (placesOf (fun r => r.kinds.contains v.node.kind) rules).map fun i => ⟨i, some address⟩
    | none => []) ++
    (placesOf (fun _ => true) rules).map fun i => ⟨i, none⟩

section Slots

variable {rules : List Rule} {tree : Tree}

theorem mem_slotsOf {s : Slot} : s ∈ slotsOf rules tree ↔ ∃ task, s.Holds rules tree task := by
  rw [slotsOf, List.mem_append, List.mem_flatMap, List.mem_map]
  constructor
  · rintro (⟨address, -, hs⟩ | ⟨i, hi, rfl⟩)
    · split at hs
      · rename_i v hv
        obtain ⟨i, hi, rfl⟩ := List.mem_map.1 hs
        obtain ⟨r, hr, hkind⟩ := (mem_placesOf _ rules).1 hi
        exact ⟨_, .node hr hv (List.contains_iff_mem.1 hkind)⟩
      · exact absurd hs List.not_mem_nil
    · obtain ⟨r, hr, -⟩ := (mem_placesOf _ rules).1 hi
      exact ⟨_, .exit hr⟩
  · rintro ⟨task, hs⟩
    cases hs with
    | @node i r address v hr hv hkind =>
      refine Or.inl ⟨address, Visit.mem_addresses_of_follow? hv, ?_⟩
      rw [hv]
      exact List.mem_map_of_mem
        ((mem_placesOf _ rules).2 ⟨r, hr, List.contains_iff_mem.2 hkind⟩)
    | @exit i r hr => exact Or.inr ⟨i, (mem_placesOf _ rules).2 ⟨r, hr, rfl⟩, rfl⟩

/-- No slot comes twice, and all come in order. -/
theorem pairwise_slotsOf : (slotsOf rules tree).Pairwise Slot.Before := by
  rw [slotsOf, List.pairwise_append, List.pairwise_flatMap]
  refine ⟨⟨fun address _ => ?_, tree.pairwise_addresses.imp fun {a b} hab => ?_⟩, ?_, ?_⟩
  · split
    · exact (pairwise_placesOf _ rules).map _ fun i j hij => Or.inr ⟨rfl, hij⟩
    · exact List.Pairwise.nil
  · intro s hs s' hs'
    split at hs
    · split at hs'
      · obtain ⟨i, -, rfl⟩ := List.mem_map.1 hs
        obtain ⟨j, -, rfl⟩ := List.mem_map.1 hs'
        exact Or.inl hab
      · exact absurd hs' List.not_mem_nil
    · exact absurd hs List.not_mem_nil
  · exact (pairwise_placesOf _ rules).map _ fun i j hij => hij
  · intro s hs s' hs'
    obtain ⟨address, -, hs⟩ := List.mem_flatMap.1 hs
    obtain ⟨j, -, rfl⟩ := List.mem_map.1 hs'
    split at hs
    · obtain ⟨i, -, rfl⟩ := List.mem_map.1 hs
      trivial
    · exact absurd hs List.not_mem_nil

theorem forall₂_slotsOf (rules : List Rule) (tree : Tree) :
    List.Forall₂ (Slot.Holds rules tree) (slotsOf rules tree) (schedule rules tree) := by
  refine List.rel_append ?_ ?_
  · rw [Tree.walk_eq_preorder]
    refine List.rel_flatMap (Visit.forall₂_follow? tree []) fun address v hv => ?_
    rw [hv, Subscriptions.subscribers_ofRules, List.forall₂_map_left_iff,
      List.forall₂_map_right_iff]
    refine (forall₂_placesOf _ rules).imp fun i r hr => ?_
    exact .node hr.1 hv (List.contains_iff_mem.1 hr.2)
  · rw [List.forall₂_map_left_iff, List.forall₂_map_right_iff]
    have hall := forall₂_placesOf (fun _ => true) rules
    rw [List.filter_eq_self.2 fun _ _ => rfl] at hall
    exact hall.imp fun i r hr => .exit hr.1

end Slots

/-! ## What is called -/

/-- The calls carry out the tasks of some of the slots, in order. A slot is left out only if a rule
of its name has failed. -/
theorem exists_made {Stands : Slot → Rule × Occasion → Prop} (ctx : FileContext) (p : Progress)
    {slots : List Slot} {tasks : List (Rule × Occasion)} (h : List.Forall₂ Stands slots tasks) :
    ∃ made, made.Sublist slots ∧
      List.Forall₂ Stands made ((Progress.callsFrom ctx p tasks).map Call.task) ∧
      ∀ s ∈ slots, s ∈ made ∨ ∃ task, Stands s task ∧ (task.1.info.id ∈ p.failed ∨
        ∃ c ∈ Progress.callsFrom ctx p tasks, c.rule.info.id = task.1.info.id ∧
          ∃ fault, c.outcome = .error fault) := by
  induction h generalizing p with
  | nil => exact ⟨[], .slnil, .nil, fun s hs => Or.inl hs⟩
  | @cons s task slots tasks hs _ ih =>
    rw [Progress.callsFrom]
    split
    · rename_i hfailed
      obtain ⟨made, hsub, hmade, hleft⟩ := ih p
      refine ⟨made, hsub.cons s, hmade, List.forall_mem_cons.2 ⟨?_, hleft⟩⟩
      exact Or.inr ⟨task, hs, Or.inl (List.contains_iff_mem.1 hfailed)⟩
    · obtain ⟨made, hsub, hmade, hleft⟩ := ih (p.call ctx task.1 task.2)
      refine ⟨s :: made, hsub.cons_cons s, .cons hs hmade,
        List.forall_mem_cons.2 ⟨Or.inl List.mem_cons_self, fun s' hs' => ?_⟩⟩
      rcases hleft s' hs' with hin | ⟨task', hstands, hfailed | ⟨c, hc, hid, hfault⟩⟩
      · exact Or.inl (List.mem_cons_of_mem _ hin)
      · refine Or.inr ⟨task', hstands, ?_⟩
        rcases (Progress.mem_failed_call ctx p _ _ _).1 hfailed with hbefore | ⟨hid, hfault⟩
        · exact Or.inl hbefore
        · exact Or.inr ⟨_, List.mem_cons_self, hid.symm, hfault⟩
      · exact Or.inr ⟨task', hstands, Or.inr ⟨c, List.mem_cons_of_mem _ hc, hid, hfault⟩⟩

/-- How the rules are called over a file. -/
structure Dispatch (rules : List Rule) (ctx : FileContext) (tree : Tree) : Prop where
  /-- The nodes are visited in pre-order. -/
  walk : tree.walk = tree.preorder []
  /-- The calls are those of the plain order. -/
  calls : traceOf rules ctx tree = plainTrace rules ctx tree
  /-- The calls carry out the tasks of different slots, in the order of the slots, and leave out
  no slot but those of a name that has failed. -/
  once : ∃ made : List Slot, made.Nodup ∧ made.Pairwise Slot.Before ∧
    List.Forall₂ (Slot.Holds rules tree) made ((traceOf rules ctx tree).map Call.task) ∧
    ∀ s task, s.Holds rules tree task → s ∈ made ∨
      ∃ c ∈ traceOf rules ctx tree, c.rule.info.id = task.1.info.id ∧
        ∃ fault, c.outcome = .error fault

theorem Slot.Holds.unique {rules : List Rule} {tree : Tree} {s : Slot}
    {task task' : Rule × Occasion} (h : s.Holds rules tree task) (h' : s.Holds rules tree task') :
    task = task' := by
  cases h with
  | node hr hv _ =>
    cases h' with
    | node hr' hv' _ =>
      rw [hr, Option.some.injEq] at hr'
      rw [hv, Option.some.injEq] at hv'
      rw [hr', hv']
  | exit hr =>
    cases h' with
    | exit hr' =>
      rw [hr, Option.some.injEq] at hr'
      rw [hr']

/-- **Dispatch.** Over every file, whatever fails, the rules are called as in the plain order: node
by node in pre-order, at each node those that subscribe to its kind, in the order of the rules, and
all of them at the end. No rule is called twice at one node, and none that is due is left out unless
its name has failed. -/
theorem dispatched (rules : List Rule) (ctx : FileContext) (tree : Tree) :
    Dispatch rules ctx tree where
  walk := tree.walk_eq_preorder
  calls := traceOf_eq_plainTrace rules ctx tree
  once := by
    obtain ⟨made, hsub, hmade, hleft⟩ :=
      exists_made ctx .start (forall₂_slotsOf rules tree)
    rw [← traceOf_eq_callsFrom] at hmade hleft
    have hordered := pairwise_slotsOf.sublist hsub
    refine ⟨made, hordered.imp fun {s s'} hbefore heq => ?_, hordered, hmade,
      fun s task hs => (hleft s (mem_slotsOf.2 ⟨task, hs⟩)).imp_right ?_⟩
    · exact s.not_before_self (by rwa [← heq] at hbefore)
    · rintro ⟨task', hs', hfailed | hfault⟩
      · exact absurd hfailed List.not_mem_nil
      · rwa [hs.unique hs']

end SliceLint
