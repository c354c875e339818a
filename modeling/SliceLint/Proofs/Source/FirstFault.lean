import SliceLint.Proofs.Source.Preorder
import SliceLint.Source.Reading

/-!
# The first fault

A file that cannot be read is refused at the first fault of its tree. The search for it descends
only into the nodes that are flagged as faulty, and stops at the first fault that it meets.

**Document order** (`Tree.nodes`). All nodes, punctuation and keywords included, each before its
children.

**Exact flags** (`Tree.HasExactFlags`). A node is flagged just when it or a node below it is a
fault. A tree in which each flag agrees with the flags one level below has exact flags
(`Tree.IsFlagged.hasExactFlags`), and so has every tree that the grammar reads from a text
(`Dialect.hasExactFlags_tree`). Of another reader this is a law (`SourceReader.HasExactFlags`).

**The search** (`FaultSearch`). The search step by step, with no bound on its length: what it does
with the first of the pending nodes. It comes to an end (`Tree.faultSearch_firstFaultFrom`), since
the nodes below the pending ones become fewer with every step.

**What is left out.** What is still to be searched are the nodes of the pending trees, in document
order. A step leaves out a node that is no fault (`Tree.find?_nodesAll_descend`) or a tree without a
fault (`Tree.find?_nodesAll_skip`), and so the first fault among them stays the same in a whole
search (`Tree.eq_find?_of_faultSearch`).
-/

namespace SliceLint

namespace Tree

/-! ## Document order -/

mutual

/-- A node and all nodes below it, each before its children. -/
def nodes : Tree → List Tree
  | node l cs => node l cs :: nodesAll cs

/-- The nodes of several trees, one tree after the other. -/
def nodesAll : List Tree → List Tree
  | [] => []
  | t :: ts => nodes t ++ nodesAll ts

end

theorem nodesAll_append (ts us : List Tree) : nodesAll (ts ++ us) = nodesAll ts ++ nodesAll us := by
  induction ts with
  | nil => rfl
  | cons t ts ih => rw [List.cons_append, nodesAll, nodesAll, ih, List.append_assoc]

theorem mem_nodesAll {ts : List Tree} {n : Tree} : n ∈ nodesAll ts ↔ ∃ t ∈ ts, n ∈ t.nodes := by
  induction ts with
  | nil => simp [nodesAll]
  | cons t ts ih => simp [nodesAll, ih]

theorem nodes_eq (t : Tree) : t.nodes = t :: nodesAll t.children := by
  cases t with
  | node l cs => rw [nodes, children]

theorem mem_nodes_self (t : Tree) : t ∈ t.nodes := by
  rw [nodes_eq]
  exact List.mem_cons_self

/-! ## Exact flags -/

/-- Each node of the tree is flagged just when it or a node below it is a fault. -/
def HasExactFlags (t : Tree) : Prop :=
  ∀ n ∈ t.nodes, n.faulty ↔ ∃ m ∈ n.nodes, m.isFault

instance (t : Tree) : Decidable t.HasExactFlags :=
  inferInstanceAs (Decidable (∀ n ∈ t.nodes, n.faulty ↔ ∃ m ∈ n.nodes, m.isFault))

theorem HasExactFlags.of_mem_children {t c : Tree} (h : t.HasExactFlags) (hc : c ∈ t.children) :
    c.HasExactFlags := by
  intro n hn
  refine h n ?_
  rw [nodes_eq]
  exact List.mem_cons_of_mem t (mem_nodesAll.2 ⟨c, hc, hn⟩)

theorem HasExactFlags.faulty_iff {t : Tree} (h : t.HasExactFlags) :
    t.faulty ↔ ∃ m ∈ t.nodes, m.isFault := h t t.mem_nodes_self

/-- Flags that agree with the flags of the children are exact. -/
theorem IsFlagged.hasExactFlags {t : Tree} (h : t.IsFlagged) : t.HasExactFlags := by
  induction h with
  | @intro l cs hflag hchildren ih =>
    have hbelow : cs.any faulty ↔ ∃ m ∈ nodesAll cs, m.isFault := by
      rw [List.any_eq_true]
      constructor
      · rintro ⟨c, hc, hfaulty⟩
        obtain ⟨m, hm, hfault⟩ := (ih c hc).faulty_iff.1 hfaulty
        exact ⟨m, mem_nodesAll.2 ⟨c, hc, hm⟩, hfault⟩
      · rintro ⟨m, hm, hfault⟩
        obtain ⟨c, hc, hm⟩ := mem_nodesAll.1 hm
        exact ⟨c, hc, (ih c hc).faulty_iff.2 ⟨m, hm, hfault⟩⟩
    have hroot : l.faulty ↔ ∃ m ∈ (node l cs).nodes, m.isFault := by
      rw [hflag, Bool.or_eq_true, hbelow, nodes, List.exists_mem_cons_iff]
    intro n hn
    rcases List.mem_cons.1 hn with rfl | hn
    · exact hroot
    · obtain ⟨c, hc, hn⟩ := mem_nodesAll.1 hn
      exact ih c hc n hn

end Tree

/-! ## The search -/

/-- What comes of searching the pending nodes for a fault. -/
inductive FaultSearch : List Tree → Option Tree → Prop
  | exhausted : FaultSearch [] none
  | found {t : Tree} (pending : List Tree) (hfault : t.isFault) :
    FaultSearch (t :: pending) (some t)
  | descend {t : Tree} {pending : List Tree} {answer : Option Tree} (hfault : ¬ t.isFault)
      (hfaulty : t.faulty) (hrest : FaultSearch (t.children ++ pending) answer) :
    FaultSearch (t :: pending) answer
  | skip {t : Tree} {pending : List Tree} {answer : Option Tree} (hfault : ¬ t.isFault)
      (hfaulty : ¬ t.faulty) (hrest : FaultSearch pending answer) :
    FaultSearch (t :: pending) answer

namespace FaultSearch

theorem unique {pending : List Tree} {answer answer' : Option Tree}
    (h : FaultSearch pending answer) (h' : FaultSearch pending answer') : answer' = answer := by
  induction h generalizing answer' with
  | exhausted =>
    cases h' with
    | exhausted => rfl
  | found _ hfault =>
    cases h' with
    | found => rfl
    | descend hnot _ _ => exact absurd hfault hnot
    | skip hnot _ _ => exact absurd hfault hnot
  | descend hfault hfaulty _ ih =>
    cases h' with
    | found _ h => exact absurd h hfault
    | descend _ _ hrest => exact ih hrest
    | skip _ hnot _ => exact absurd hfaulty hnot
  | skip hfault hfaulty _ ih =>
    cases h' with
    | found _ h => exact absurd h hfault
    | descend _ h _ => exact absurd h hfaulty
    | skip _ _ hrest => exact ih hrest

end FaultSearch

namespace Tree

theorem sizeAll_append (ts us : List Tree) : sizeAll (ts ++ us) = sizeAll ts + sizeAll us := by
  induction ts with
  | nil => exact (Nat.zero_add _).symm
  | cons t ts ih => rw [List.cons_append, sizeAll, sizeAll, ih, Nat.add_assoc]

theorem size_eq (t : Tree) : t.size = sizeAll t.children + 1 := by
  cases t with
  | node l cs => rw [size, children]

theorem sizeAll_descend (t : Tree) (pending : List Tree) :
    sizeAll (t.children ++ pending) + 1 = sizeAll (t :: pending) := by
  rw [sizeAll_append, sizeAll, size_eq]
  omega

theorem faultSearch_firstFaultFrom {n : Nat} {pending : List Tree} (h : sizeAll pending ≤ n) :
    FaultSearch pending (firstFaultFrom n pending) := by
  induction n generalizing pending with
  | zero =>
    cases pending with
    | nil => exact .exhausted
    | cons t pending =>
      have hnext := sizeAll_descend t pending
      omega
  | succ n ih =>
    cases pending with
    | nil => exact .exhausted
    | cons t pending =>
      have hnext := sizeAll_descend t pending
      rw [firstFaultFrom]
      by_cases hfault : t.isFault
      · rw [if_pos hfault]
        exact .found pending hfault
      rw [if_neg hfault]
      by_cases hfaulty : t.faulty
      · rw [if_pos hfaulty]
        exact .descend hfault hfaulty (ih (by omega))
      · rw [if_neg hfaulty]
        rw [sizeAll_append] at hnext
        exact .skip hfault hfaulty (ih (by omega))

/-- **The end.** The search of a tree comes to an end, with the fault that is found. -/
theorem faultSearch_iff (t : Tree) (answer : Option Tree) :
    FaultSearch [t] answer ↔ answer = t.firstFault? := by
  have hsearch : FaultSearch [t] t.firstFault? :=
    faultSearch_firstFaultFrom (by simp [sizeAll])
  constructor
  · exact hsearch.unique
  · rintro rfl
    exact hsearch

/-! ## What is left out -/

theorem find?_nodesAll_found {t : Tree} (pending : List Tree) (hfault : t.isFault) :
    (nodesAll (t :: pending)).find? isFault = some t := by
  rw [nodesAll, nodes_eq, List.cons_append, List.find?_cons_of_pos hfault]

theorem find?_nodesAll_descend {t : Tree} (pending : List Tree) (hfault : ¬ t.isFault) :
    (nodesAll (t :: pending)).find? isFault =
      (nodesAll (t.children ++ pending)).find? isFault := by
  rw [nodesAll, nodes_eq, List.cons_append, List.find?_cons_of_neg hfault, nodesAll_append]

/-- A tree with exact flags may be left out when it is not flagged. -/
theorem find?_nodesAll_skip {t : Tree} (pending : List Tree) (h : t.HasExactFlags)
    (hfaulty : ¬ t.faulty) :
    (nodesAll (t :: pending)).find? isFault = (nodesAll pending).find? isFault := by
  have hnone : t.nodes.find? isFault = none := by
    rw [List.find?_eq_none]
    intro m hm hfault
    exact hfaulty (h.faulty_iff.2 ⟨m, hm, hfault⟩)
  rw [nodesAll, List.find?_append, hnone, Option.none_or]

/-- **The first.** With exact flags a search finds the first fault in document order. -/
theorem eq_find?_of_faultSearch {pending : List Tree} {answer : Option Tree}
    (h : FaultSearch pending answer) (hflags : ∀ t ∈ pending, t.HasExactFlags) :
    answer = (nodesAll pending).find? isFault := by
  induction h with
  | exhausted => rfl
  | found pending hfault => rw [find?_nodesAll_found pending hfault]
  | @descend t pending answer hfault _ _ ih =>
    obtain ⟨ht, hpending⟩ := List.forall_mem_cons.1 hflags
    have hnext : ∀ u ∈ t.children ++ pending, u.HasExactFlags := by
      intro u hu
      rcases List.mem_append.1 hu with hu | hu
      · exact ht.of_mem_children hu
      · exact hpending u hu
    rw [ih hnext, find?_nodesAll_descend pending hfault]
  | @skip t pending answer _ hfaulty _ ih =>
    obtain ⟨ht, hpending⟩ := List.forall_mem_cons.1 hflags
    rw [ih hpending, find?_nodesAll_skip pending ht hfaulty]

variable {t : Tree}

theorem firstFault?_eq_find? (h : t.HasExactFlags) : t.firstFault? = t.nodes.find? isFault := by
  have hsearch : FaultSearch [t] t.firstFault? := (t.faultSearch_iff _).2 rfl
  rw [eq_find?_of_faultSearch hsearch (List.forall_mem_singleton.2 h), nodesAll, nodesAll,
    List.append_nil]

theorem firstFault?_eq_none_iff (h : t.HasExactFlags) :
    t.firstFault? = none ↔ t.faulty = false := by
  rw [firstFault?_eq_find? h, List.find?_eq_none, ← Bool.not_eq_true, h.faulty_iff]
  simp

theorem sound_eq (h : t.HasExactFlags) : t.sound =
    match t.nodes.find? isFault with
    | some bad => .error (.unexpected bad.start)
    | none => .ok t := by
  have hnone := firstFault?_eq_none_iff h
  rw [sound, ← firstFault?_eq_find? h]
  cases hfirst : t.firstFault? with
  | none => rw [hnone.1 hfirst, if_neg Bool.false_ne_true]
  | some bad =>
    have hfaulty : t.faulty = true := by
      rw [← Bool.not_eq_false, ← hnone, hfirst]
      exact Option.some_ne_none bad
    rw [if_pos hfaulty, Option.map_some, Option.getD_some]

end Tree

namespace Dialect

theorem hasExactFlags_tree (d : Dialect) (text : String) : (d.tree text).HasExactFlags := by
  refine Tree.IsFlagged.hasExactFlags ?_
  unfold tree
  simp only
  split
  · exact Tree.isFlagged_branch _ _ _ (Part.isFlagged_trees _)
  · exact Tree.isFlagged_branch _ _ _ (List.forall_mem_singleton.2 (Tree.isFlagged_fault _))

end Dialect

/-- Every text becomes a tree with exact flags. -/
class SourceReader.HasExactFlags [SourceReader] : Prop where
  hasExactFlags (d : Dialect) (text : String) : (tree d text).HasExactFlags

instance SourceReader.hasExactFlags_grammar : HasExactFlags := ⟨Dialect.hasExactFlags_tree⟩

section Reader

variable [SourceReader] [SourceReader.HasExactFlags]

open SourceReader (tree)

theorem readSource_eq {suffix : String} {d : Dialect} (hd : Dialect.ofExtension? suffix = some d)
    (text : String) : readSource suffix text =
      match (tree d text).nodes.find? Tree.isFault with
      | some bad => .error (.unexpected bad.start)
      | none => .ok (d, tree d text) := by
  simp only [readSource, hd, Tree.sound_eq (SourceReader.HasExactFlags.hasExactFlags d text)]
  cases (tree d text).nodes.find? Tree.isFault with
  | none => rfl
  | some bad => rfl

/-- **The first fault.** In a tree with exact flags the search for a fault comes to an end, with the
first fault in document order, and without one just when the root is not flagged. A flagged tree is
refused where its first fault starts. So is a text, as the trees that are read have exact flags. -/
theorem first_fault_located :
    (∀ t : Tree, t.HasExactFlags →
      (∀ answer, FaultSearch [t] answer ↔ answer = t.nodes.find? Tree.isFault) ∧
      t.firstFault? = t.nodes.find? Tree.isFault ∧
      (t.firstFault? = none ↔ t.faulty = false) ∧
      (t.faulty = false → t.sound = .ok t) ∧
      (t.faulty = true → ∃ bad, t.nodes.find? Tree.isFault = some bad ∧
        t.sound = .error (.unexpected bad.start))) ∧
    ∀ suffix d, Dialect.ofExtension? suffix = some d → ∀ text,
      (tree d text).HasExactFlags ∧
      readSource suffix text =
        match (tree d text).nodes.find? Tree.isFault with
        | some bad => .error (.unexpected bad.start)
        | none => .ok (d, tree d text) := by
  constructor
  · intro t ht
    have hfirst := Tree.firstFault?_eq_find? ht
    have hnone := Tree.firstFault?_eq_none_iff ht
    refine ⟨fun answer => ?_, hfirst, hnone, fun hclean => ?_, fun hfaulty => ?_⟩
    · rw [t.faultSearch_iff, hfirst]
    · rw [Tree.sound_eq ht, ← hfirst, hnone.2 hclean]
    · -- the flag of the root excludes that the search comes back with nothing
      have hfound : t.firstFault? ≠ none := by
        intro hmissed
        exact Bool.false_ne_true ((hnone.1 hmissed).symm.trans hfaulty)
      obtain ⟨bad, hbad⟩ := Option.ne_none_iff_exists'.1 hfound
      rw [hfirst] at hbad
      exact ⟨bad, hbad, by rw [Tree.sound_eq ht, hbad]⟩
  · intro suffix d hd text
    exact ⟨SourceReader.HasExactFlags.hasExactFlags d text, readSource_eq hd text⟩

end Reader

/-- A closing bracket that the reader had to suppose. -/
def supposedBracket : Tree := .node ⟨")", false, none, "", ⟨1, 5⟩, true, true⟩ []

/-- A statement without a fault, a condition that is not closed, and a bracket that is left over. -/
def unclosedCondition : Tree :=
  .branch programKind "" .origin [
    .branch "expression_statement" "" .origin [
      .leaf "identifier" true "a" .origin, .leaf ";" false ";" ⟨0, 1⟩],
    .branch "if_statement" "" ⟨1, 0⟩ [
      .leaf "if" false "if" ⟨1, 0⟩,
      .branch "parenthesized_expression" "" ⟨1, 3⟩ [
        .leaf "(" false "(" ⟨1, 3⟩, .leaf "identifier" true "b" ⟨1, 4⟩, supposedBracket],
      .branch "statement_block" "" ⟨1, 6⟩ [
        .leaf "\x7b" false "\x7b" ⟨1, 6⟩, .leaf "\x7d" false "\x7d" ⟨1, 7⟩]],
    .fault ⟨2, 0⟩]

/-- The supposed bracket comes before the one that is left over. -/
theorem first_fault_located_unclosed :
    unclosedCondition.HasExactFlags ∧ unclosedCondition.faulty = true ∧
      FaultSearch [unclosedCondition] (some supposedBracket) ∧
      unclosedCondition.sound = .error (.unexpected ⟨1, 5⟩) ∧
      Dialect.ofExtension? ".ts" = some .plain ∧
      (SourceReader.tree .plain "if (b \x7b\x7d").HasExactFlags := by
  have hflags : unclosedCondition.HasExactFlags := by decide +kernel
  obtain ⟨htrees, htexts⟩ := first_fault_located
  obtain ⟨hsearch, -, -, -, hrefused⟩ := htrees unclosedCondition hflags
  obtain ⟨bad, hbad, hsound⟩ := hrefused (by decide)
  obtain rfl : bad = supposedBracket := Option.some.inj (hbad.symm.trans rfl)
  exact ⟨hflags, by decide, (hsearch _).2 hbad.symm, hsound, rfl,
    (htexts ".ts" .plain rfl "if (b \x7b\x7d").1⟩

end SliceLint
