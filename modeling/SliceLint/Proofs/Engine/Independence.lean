import SliceLint.Rule.Basic
import SliceLint.Engine.Trace
import SliceLint.Proofs.Engine.Wording
import Mathlib.Data.Set.Basic

/-!
# Rules with counters of their own

**Confined rules** (`Rule.Confined`). A rule that reads and writes some counters only. Rules that
answer without looking at the counters are confined to every set of them.

**Independent rules** (`Independent`). Rules with different names and different counters that
declare what they report.
-/

namespace SliceLint

/-! ## Counters -/

namespace Counters

theorem get_clear_self (s : Counters) (key : String) : (s.clear key).get key = 0 := by
  have hnone : (s.entries.filter (·.1 != key)).lookup key = none := by
    rw [List.lookup_eq_none_iff]
    intro entry hentry
    have hne := bne_iff_ne.1 (List.mem_filter.1 hentry).2
    exact bne_iff_ne.2 hne.symm
  rw [get, clear, hnone, Option.getD_none]

theorem get_clear_of_ne (s : Counters) {key k : String} (h : k ≠ key) :
    (s.clear key).get k = s.get k := by
  obtain ⟨entries⟩ := s
  unfold get clear
  congr 1
  induction entries with
  | nil => rfl
  | cons entry entries ih =>
    obtain ⟨k', n⟩ := entry
    by_cases hk' : k' = key
    · subst hk'
      rw [List.filter_cons, if_neg (by simp), List.lookup_cons, beq_eq_false_iff_ne.2 h]
      exact ih
    · rw [List.filter_cons, if_pos (bne_iff_ne.2 hk'), List.lookup_cons, List.lookup_cons]
      split
      · rfl
      · exact ih

@[simp]
theorem get_set_self (s : Counters) (key : String) (n : Nat) : (s.set key n).get key = n := by
  simp [get, set]

theorem get_set_of_ne (s : Counters) {key k : String} (n : Nat) (h : k ≠ key) :
    (s.set key n).get k = s.get k := by
  rw [← get_clear_of_ne s h]
  simp [get, set, List.lookup_cons, beq_eq_false_iff_ne.2 h]

end Counters

/-! ## Confined rules -/

/-- Two sets of counters agree under some keys. -/
def Counters.AgreeOn (own : Set String) (s t : Counters) : Prop := ∀ k ∈ own, s.get k = t.get k

/-- The rule reads and writes no counters but its own. -/
structure Rule.Confined (r : Rule) (own : Set String) : Prop where
  answers : ∀ o ctx s t, s.AgreeOn own t → (r.respond o ctx s).1 = (r.respond o ctx t).1
  counts : ∀ o ctx s t, s.AgreeOn own t → (r.respond o ctx s).2.AgreeOn own (r.respond o ctx t).2
  leaves : ∀ o ctx s, (r.respond o ctx s).2.AgreeOn ownᶜ s

/-- The rule neither reads nor writes counters. -/
def Rule.Stateless (r : Rule) : Prop :=
  ∀ o ctx s, r.respond o ctx s = ((r.respond o ctx .empty).1, s)

theorem Rule.Stateless.confined {r : Rule} (h : r.Stateless) (own : Set String) :
    r.Confined own where
  answers := fun o ctx s t _ => by rw [h o ctx s, h o ctx t]
  counts := fun o ctx s t hst => by rwa [h o ctx s, h o ctx t]
  leaves := fun o ctx s k _ => by rw [h o ctx s]

theorem Rule.stateless_ofNodes (info : RuleInfo) (kinds : List String)
    (look : Visit → FileContext → List Finding) : (Rule.ofNodes info kinds look).Stateless := by
  intro o ctx s
  cases o <;> rfl

/-- A run of rules that neither count nor fail makes all the calls that are due. -/
theorem traceOf_of_stateless {rules : List Rule} {ctx : FileContext}
    (hstateless : ∀ r ∈ rules, r.Stateless)
    (hok : ∀ r ∈ rules, ∀ o, ∃ fs, (r.respond o ctx .empty).1 = .ok fs) (tree : Tree) :
    traceOf rules ctx tree = (schedule rules tree).map fun task =>
      ⟨task.1, task.2, (task.1.respond task.2 ctx .empty).1⟩ := by
  have hloop : ∀ (tasks : List (Rule × Occasion)) (calls : List Call),
      (∀ task ∈ tasks, task.1 ∈ rules) →
      tasks.foldl (Progress.next ctx) ⟨.empty, [], calls⟩ =
        ⟨.empty, [], (tasks.map fun task =>
          ⟨task.1, task.2, (task.1.respond task.2 ctx .empty).1⟩).reverse ++ calls⟩ := by
    intro tasks
    induction tasks with
    | nil => intro calls _; rfl
    | cons task tasks ih =>
      intro calls hmem
      obtain ⟨htask, hrest⟩ := List.forall_mem_cons.1 hmem
      obtain ⟨fs, hfs⟩ := hok task.1 htask task.2
      have hrespond : task.1.respond task.2 ctx .empty = (.ok fs, .empty) :=
        (hstateless task.1 htask task.2 ctx .empty).trans (by rw [hfs])
      have hstep : Progress.next ctx ⟨.empty, [], calls⟩ task =
          ⟨.empty, [], ⟨task.1, task.2, .ok fs⟩ :: calls⟩ := by
        simp [Progress.next, Progress.call, hrespond]
      rw [List.foldl_cons, hstep, ih _ hrest, List.map_cons, List.reverse_cons, hrespond,
        List.append_assoc]
      rfl
  unfold traceOf
  rw [Progress.start, hloop _ [] fun _ htask => mem_schedule htask, List.append_nil,
    List.reverse_reverse]

/-- What a rule that looks at nodes finds is what there is to find at the nodes of its kinds. -/
theorem Rule.findings_ofNodes (info : RuleInfo) (kinds : List String)
    (look : Visit → FileContext → List Finding) (ctx : FileContext) (tree : Tree) :
    (traceOf [Rule.ofNodes info kinds look] ctx tree).flatMap Call.findings =
      (tree.walk.filter fun v => kinds.contains v.node.kind).flatMap fun v =>
        (look v ctx).map fun f => (Rule.ofNodes info kinds look, f) := by
  rw [traceOf_of_stateless (by simpa using Rule.stateless_ofNodes info kinds look)
    (by
      intro r hr o
      rw [List.mem_singleton.1 hr]
      cases o <;> exact ⟨_, rfl⟩)]
  have hnode : ∀ v : Visit, ([Rule.ofNodes info kinds look].filter fun r =>
      r.kinds.contains v.node.kind).flatMap (fun r =>
        Call.findings ⟨r, .node v, (r.respond (.node v) ctx .empty).1⟩) =
      if kinds.contains v.node.kind then
        (look v ctx).map fun f => (Rule.ofNodes info kinds look, f) else [] := by
    intro v
    rw [List.filter_cons]
    change (if kinds.contains v.node.kind then _ else _ : List Rule).flatMap _ = _
    split
    · exact List.append_nil _
    · rfl
  have hexit : [Rule.ofNodes info kinds look].flatMap (fun r =>
      Call.findings ⟨r, .exit, (r.respond .exit ctx .empty).1⟩) = [] := rfl
  simp only [schedule, Subscriptions.subscribers_ofRules, List.map_append, List.map_flatMap,
    List.flatMap_append, List.flatMap_assoc, List.flatMap_map, hnode, hexit, List.append_nil]
  exact (flatMap_filter_eq _ _ _).symm

theorem Rule.mem_findings_ofNodes {info : RuleInfo} {kinds : List String}
    {look : Visit → FileContext → List Finding} {ctx : FileContext} {tree : Tree} {v : Visit}
    {f : Finding} (hv : v ∈ tree.walk) (hkind : v.node.kind ∈ kinds) (hf : f ∈ look v ctx) :
    (Rule.ofNodes info kinds look, f) ∈
      (traceOf [Rule.ofNodes info kinds look] ctx tree).flatMap Call.findings := by
  rw [Rule.findings_ofNodes]
  exact List.mem_flatMap.2
    ⟨v, List.mem_filter.2 ⟨hv, List.contains_iff_mem.2 hkind⟩, List.mem_map_of_mem hf⟩

theorem Rule.Confined.mono {r : Rule} {own more : Set String} (h : r.Confined own)
    (hmore : own ⊆ more) : r.Confined more where
  answers := fun o ctx s t hst => h.answers o ctx s t fun k hk => hst k (hmore hk)
  counts := by
    intro o ctx s t hst k hk
    by_cases hown : k ∈ own
    · exact h.counts o ctx s t (fun k hk => hst k (hmore hk)) k hown
    · rw [h.leaves o ctx s k hown, h.leaves o ctx t k hown]
      exact hst k hk
  leaves := fun o ctx s k hk => h.leaves o ctx s k fun hown => hk (hmore hown)

/-! ## Independent rules -/

/-- The rules have different names and different counters, and all their findings are covered. The
counters of a rule are given by its name. -/
structure Independent (own : String → Set String) (rules : List Rule) : Prop where
  names : (rules.map fun r => r.info.id).Nodup
  confined : ∀ r ∈ rules, r.Confined (own r.info.id)
  apart : ∀ r ∈ rules, ∀ r' ∈ rules, r.info.id ≠ r'.info.id →
    ∀ key ∈ own r.info.id, key ∉ own r'.info.id
  declares : ∀ r ∈ rules, r.Declares

namespace Independent

variable {own : String → Set String} {rules : List Rule}

theorem perm (h : Independent own rules) {order : List Rule} (hperm : order.Perm rules) :
    Independent own order where
  names := (hperm.map fun r => r.info.id).nodup_iff.2 h.names
  confined := fun r hr => h.confined r (hperm.mem_iff.1 hr)
  apart := fun r hr r' hr' => h.apart r (hperm.mem_iff.1 hr) r' (hperm.mem_iff.1 hr')
  declares := fun r hr => h.declares r (hperm.mem_iff.1 hr)

theorem filter_id (h : Independent own rules) {r : Rule} (hr : r ∈ rules) :
    rules.filter (fun r' => r'.info.id == r.info.id) = [r] := by
  have hnames := h.names
  induction rules with
  | nil => exact absurd hr List.not_mem_nil
  | cons r₀ rs ih =>
    rw [List.map_cons, List.nodup_cons] at hnames
    rcases List.mem_cons.1 hr with rfl | hrs
    · have hnone : rs.filter (fun r' => r'.info.id == r.info.id) = [] := by
        rw [List.filter_eq_nil_iff]
        intro r' hr' hid
        exact hnames.1 (List.mem_map.2 ⟨r', hr', eq_of_beq hid⟩)
      rw [List.filter_cons, if_pos (beq_self_eq_true _), hnone]
    · have hne : ¬(r₀.info.id == r.info.id) = true := fun hid =>
        hnames.1 (List.mem_map.2 ⟨r, hrs, (eq_of_beq hid).symm⟩)
      have htail : Independent own rs :=
        ⟨hnames.2, fun r' hr' => h.confined r' (List.mem_cons_of_mem _ hr'),
          fun r' hr' r'' hr'' =>
            h.apart r' (List.mem_cons_of_mem _ hr') r'' (List.mem_cons_of_mem _ hr''),
          fun r' hr' => h.declares r' (List.mem_cons_of_mem _ hr')⟩
      rw [List.filter_cons, if_neg hne, ih htail hrs hnames.2]

end Independent

end SliceLint
