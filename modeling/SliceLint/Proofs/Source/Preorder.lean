import SliceLint.Source.Tree
import Mathlib.Algebra.BigOperators.Group.List.Basic
import Mathlib.Algebra.GroupWithZero.Nat
import Mathlib.Data.List.Forall2
import Mathlib.Data.List.Nodup

/-!
# The order of a walk

A walk keeps a list of pending nodes. It takes the first of them and puts its named children in
front of the rest.

**Pre-order** (`Visit.preorder`). A node comes first, and then, one after the other, its named
children with all that is below them. The walk goes in this order (`Tree.walk_eq_preorder`): what is
still to come are the pre-orders of the pending nodes (`Tree.walkFrom_eq`), and every step uses up
one of the nodes that they have between them.

**Addresses** (`Tree.addresses`). A node is found from the root by going down, each time to the
named child with a given number. Along the pre-order the addresses ascend
(`Tree.pairwise_addresses`), so that no node comes twice, and every address that leads to a node is
among them (`Visit.mem_addresses_of_follow?`). A walk with its addresses (`Tree.located`) has each
node once (`Tree.nodup_located`, `Tree.mem_located`).
-/

namespace SliceLint

namespace Tree

/-- What holds of a node whenever it holds of its children holds of every tree. -/
theorem induction_children {P : Tree → Prop}
    (h : ∀ label children, (∀ c ∈ children, P c) → P (node label children)) : ∀ t, P t
  | node label children => h label children fun c _ => induction_children h c

/-! ## Pre-order -/

mutual

/-- A node and its named descendants, each before its children. -/
def preorder (ancestors : List Tree) : Tree → List Visit
  | node l cs => ⟨node l cs, ancestors⟩ :: preorderAll (node l cs :: ancestors) cs

/-- The named ones among several trees, each with its named descendants. -/
def preorderAll (ancestors : List Tree) : List Tree → List Visit
  | [] => []
  | t :: ts => (if t.named then preorder ancestors t else []) ++ preorderAll ancestors ts

end

theorem preorderAll_eq (ancestors : List Tree) (ts : List Tree) : preorderAll ancestors ts =
    (ts.filter named).flatMap fun t => t.preorder ancestors := by
  induction ts with
  | nil => rfl
  | cons t ts ih =>
    rw [preorderAll, ih, List.filter_cons]
    split
    · rw [List.flatMap_cons]
    · rw [List.nil_append]

end Tree

namespace Visit

/-- The node and its named descendants, each before its children. -/
def preorder (v : Visit) : List Visit := v.node.preorder v.ancestors

theorem preorder_eq (v : Visit) : v.preorder = v :: v.descend.flatMap preorder := by
  obtain ⟨⟨l, cs⟩, ancestors⟩ := v
  rw [preorder, Tree.preorder, Tree.preorderAll_eq, descend, List.flatMap_map]
  rfl

end Visit

/-! ## The walk -/

namespace Tree

theorem sum_size_filter_le (p : Tree → Bool) (ts : List Tree) :
    ((ts.filter p).map size).sum ≤ sizeAll ts := by
  induction ts with
  | nil => exact Nat.le_refl 0
  | cons t ts ih =>
    rw [sizeAll, List.filter_cons]
    split
    · rw [List.map_cons, List.sum_cons]
      omega
    · omega

/-- The nodes below pending nodes, these included. -/
def pendingSize (pending : List Visit) : Nat := (pending.map fun v => v.node.size).sum

theorem pendingSize_step (v : Visit) (pending : List Visit) :
    pendingSize (v.descend ++ pending) < pendingSize (v :: pending) := by
  obtain ⟨⟨l, cs⟩, ancestors⟩ := v
  have hchildren := sum_size_filter_le named cs
  simp only [pendingSize, Visit.descend, List.map_append, List.sum_append, List.map_map,
    List.map_cons, List.sum_cons, size]
  change ((cs.filter named).map size).sum + _ < _
  omega

/-- **The walk.** With steps enough for all nodes, what a walk visits are the pre-orders of the
pending nodes. -/
theorem walkFrom_eq {n : Nat} {pending : List Visit} (h : pendingSize pending ≤ n) :
    walkFrom n pending = pending.flatMap Visit.preorder := by
  induction n generalizing pending with
  | zero =>
    cases pending with
    | nil => rfl
    | cons v pending =>
      have hless := pendingSize_step v pending
      omega
  | succ n ih =>
    cases pending with
    | nil => rfl
    | cons v pending =>
      have hless := pendingSize_step v pending
      rw [walkFrom, ih (by omega), List.flatMap_append, List.flatMap_cons, Visit.preorder_eq,
        List.cons_append]

theorem walk_eq_preorder (t : Tree) : t.walk = t.preorder [] := by
  have hsize : pendingSize [⟨t, []⟩] ≤ t.size := by simp [pendingSize]
  rw [walk, walkFrom_eq hsize, List.flatMap_singleton]
  rfl

/-! ## Addresses -/

mutual

/-- The addresses of a node and of its named descendants, in pre-order. -/
def addresses : Tree → List (List Nat)
  | node _ cs => [] :: addressesFrom 0 cs

/-- The addresses below several trees, the first of the named ones having a given number. -/
def addressesFrom (i : Nat) : List Tree → List (List Nat)
  | [] => []
  | t :: ts =>
    if t.named then (addresses t).map (i :: ·) ++ addressesFrom (i + 1) ts else addressesFrom i ts

end

/-- Below trees that are numbered on, the first number of an address is one of theirs, and the rest
is an address in the tree with this number. -/
theorem mem_addressesFrom {i : Nat} {ts : List Tree} {a : List Nat} : a ∈ addressesFrom i ts ↔
    ∃ j b c, a = (i + j) :: b ∧ (ts.filter named)[j]? = some c ∧ b ∈ c.addresses := by
  induction ts generalizing i with
  | nil => simp [addressesFrom]
  | cons t ts ih =>
    rw [addressesFrom, List.filter_cons]
    split
    · rw [List.mem_append, List.mem_map, ih]
      constructor
      · rintro (⟨b, hb, rfl⟩ | ⟨j, b, c, rfl, hc, hb⟩)
        · exact ⟨0, b, t, rfl, rfl, hb⟩
        · exact ⟨j + 1, b, c, by congr 1; omega, hc, hb⟩
      · rintro ⟨j, b, c, rfl, hc, hb⟩
        cases j with
        | zero =>
          cases hc
          exact Or.inl ⟨b, hb, rfl⟩
        | succ j => exact Or.inr ⟨j, b, c, by congr 1; omega, hc, hb⟩
    · exact ih

theorem pairwise_addressesFrom {i : Nat} {ts : List Tree}
    (h : ∀ t ∈ ts, t.addresses.Pairwise (· < ·)) : (addressesFrom i ts).Pairwise (· < ·) := by
  induction ts generalizing i with
  | nil => exact List.Pairwise.nil
  | cons t ts ih =>
    obtain ⟨ht, hts⟩ := List.forall_mem_cons.1 h
    rw [addressesFrom]
    split
    · refine List.pairwise_append.2 ⟨?_, ih hts, ?_⟩
      · exact ht.map (i :: ·) fun a b hab => List.cons_lt_cons_iff.2 (Or.inr ⟨rfl, hab⟩)
      · -- an address of a later tree starts with a higher number
        intro a ha b hb
        obtain ⟨a, -, rfl⟩ := List.mem_map.1 ha
        obtain ⟨j, b, c, rfl, -, -⟩ := mem_addressesFrom.1 hb
        exact List.cons_lt_cons_iff.2 (Or.inl (by omega))
    · exact ih hts

/-- **Ascending.** Along the pre-order the addresses ascend. -/
theorem pairwise_addresses (t : Tree) : t.addresses.Pairwise (· < ·) := by
  induction t using induction_children with
  | h label children ih =>
    rw [addresses]
    refine List.pairwise_cons.2 ⟨fun a ha => ?_, pairwise_addressesFrom ih⟩
    obtain ⟨j, b, c, rfl, -, -⟩ := mem_addressesFrom.1 ha
    exact List.nil_lt_cons _ _

end Tree

namespace Visit

/-- The node with an address below a node. -/
def follow? (v : Visit) : List Nat → Option Visit
  | [] => some v
  | i :: address => v.descend[i]?.bind fun w => w.follow? address

theorem mem_addresses_of_follow? {v w : Visit} {address : List Nat}
    (h : v.follow? address = some w) : address ∈ v.node.addresses := by
  induction address generalizing v with
  | nil =>
    obtain ⟨⟨l, cs⟩, ancestors⟩ := v
    exact List.mem_cons_self
  | cons i address ih =>
    obtain ⟨⟨l, cs⟩, ancestors⟩ := v
    rw [follow?, Option.bind_eq_some_iff] at h
    obtain ⟨u, hu, hw⟩ := h
    rw [descend, List.getElem?_map, Option.map_eq_some_iff] at hu
    obtain ⟨c, hc, rfl⟩ := hu
    refine List.mem_cons_of_mem _ (Tree.mem_addressesFrom.2 ⟨i, address, c, ?_, hc, ih hw⟩)
    rw [Nat.zero_add]

/-- Below trees that are the named children of a node from a given number on, nodes and addresses
come in the same order. -/
theorem forall₂_follow?_children {v : Visit} {i : Nat} {ts : List Tree}
    (h : ∀ t ∈ ts, ∀ ancestors, List.Forall₂ (fun address w =>
      follow? ⟨t, ancestors⟩ address = some w) t.addresses (t.preorder ancestors))
    (hchildren : v.descend.drop i =
      (ts.filter Tree.named).map fun t => ⟨t, v.node :: v.ancestors⟩) :
    List.Forall₂ (fun address w => v.follow? address = some w) (Tree.addressesFrom i ts)
      (Tree.preorderAll (v.node :: v.ancestors) ts) := by
  induction ts generalizing i with
  | nil => exact .nil
  | cons t ts ih =>
    obtain ⟨ht, hts⟩ := List.forall_mem_cons.1 h
    rw [Tree.addressesFrom, Tree.preorderAll]
    rw [List.filter_cons] at hchildren
    split
    · rename_i hnamed
      rw [if_pos hnamed, List.map_cons] at hchildren
      have hfirst : v.descend[i]? = some ⟨t, v.node :: v.ancestors⟩ := by
        rw [← List.head?_drop, hchildren, List.head?_cons]
      have hrest : v.descend.drop (i + 1) =
          (ts.filter Tree.named).map fun t => ⟨t, v.node :: v.ancestors⟩ := by
        rw [← List.drop_drop, hchildren, List.drop_one, List.tail_cons]
      refine List.rel_append ?_ (ih hts hrest)
      rw [List.forall₂_map_left_iff]
      refine (ht (v.node :: v.ancestors)).imp fun address w hw => ?_
      rw [follow?, hfirst]
      exact hw
    · rename_i hnamed
      rw [if_neg hnamed] at hchildren
      rw [List.nil_append]
      exact ih hts hchildren

/-- **Nodes and addresses** come in the same order. -/
theorem forall₂_follow? (t : Tree) : ∀ ancestors : List Tree,
    List.Forall₂ (fun address w => follow? ⟨t, ancestors⟩ address = some w) t.addresses
      (t.preorder ancestors) := by
  induction t using Tree.induction_children with
  | h label children ih =>
    intro ancestors
    rw [Tree.addresses, Tree.preorder]
    exact .cons rfl (forall₂_follow?_children (v := ⟨.node label children, ancestors⟩) ih rfl)

theorem follow?_append (v : Visit) (a b : List Nat) :
    v.follow? (a ++ b) = (v.follow? a).bind fun w => w.follow? b := by
  induction a generalizing v with
  | nil => rfl
  | cons i a ih =>
    rw [List.cons_append, follow?, follow?, Option.bind_assoc]
    simp only [ih]

end Visit

namespace Tree

/-- The nodes of a walk with their addresses. -/
def located (t : Tree) : List (List Nat × Visit) := t.addresses.zip t.walk

theorem forall₂_walk (t : Tree) :
    List.Forall₂ (fun address v => (⟨t, []⟩ : Visit).follow? address = some v) t.addresses
      t.walk := by
  rw [walk_eq_preorder]
  exact Visit.forall₂_follow? t []

theorem map_fst_located (t : Tree) : t.located.map Prod.fst = t.addresses :=
  List.map_fst_zip (Nat.le_of_eq t.forall₂_walk.length_eq)

theorem map_snd_located (t : Tree) : t.located.map Prod.snd = t.walk :=
  List.map_snd_zip (Nat.le_of_eq t.forall₂_walk.length_eq.symm)

theorem nodup_located (t : Tree) : t.located.Nodup := by
  have hnodup : t.addresses.Nodup := t.pairwise_addresses.imp fun {a b} hab heq => by
    rw [heq] at hab
    exact List.lt_irrefl b hab
  exact List.Nodup.of_map Prod.fst (t.map_fst_located ▸ hnodup)

theorem mem_located {t : Tree} {a : List Nat} {v : Visit} :
    (a, v) ∈ t.located ↔ (⟨t, []⟩ : Visit).follow? a = some v := by
  have hlocated : ∀ {a v}, (a, v) ∈ t.located → (⟨t, []⟩ : Visit).follow? a = some v := fun h =>
    (List.forall₂_iff_zip.1 t.forall₂_walk).2 h
  refine ⟨hlocated, fun h => ?_⟩
  have hmem : a ∈ t.located.map Prod.fst := by
    rw [map_fst_located]
    exact Visit.mem_addresses_of_follow? h
  obtain ⟨⟨a, w⟩, hw, rfl⟩ := List.mem_map.1 hmem
  rwa [Option.some.inj (h.symm.trans (hlocated hw))]

end Tree

end SliceLint
