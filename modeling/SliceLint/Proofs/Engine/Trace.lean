import SliceLint.Engine.Trace
import SliceLint.Proofs.Text.Order

/-!
# What is called, and what a call leads to

**Subscriptions** (`subscribers_ofRules`). The table of subscriptions names for each kind the rules
that subscribe to it, in the order of the rules.

**Genuine calls** (`Call.Genuine`). Every call in a trace is a call of one of the rules, and its
outcome is what that rule answers under some counters.
-/

namespace SliceLint

/-! ## Subscriptions -/

namespace Subscriptions

theorem subscribers_add (table : Subscriptions) (r : Rule) (kind kind' : String) :
    (table.add r kind).subscribers kind' =
      table.subscribers kind' ++ if kind = kind' then [r] else [] := by
  induction table with
  | nil =>
    by_cases hk : kind = kind'
    · subst hk
      simp [add, subscribers]
    · have hk' : (kind' == kind) = false := by simpa using Ne.symm hk
      simp [add, subscribers, List.lookup_cons, hk, hk']
  | cons entry rest ih =>
    obtain ⟨k, rs⟩ := entry
    unfold subscribers at ih ⊢
    by_cases hk : k = kind
    · subst hk
      by_cases hk' : k = kind'
      · subst hk'
        simp [add]
      · have hne : (kind' == k) = false := by simpa using Ne.symm hk'
        simp [add, List.lookup_cons, hk', hne]
    · have hadd : add ((k, rs) :: rest) r kind = (k, rs) :: add rest r kind := by
        simp [add, hk]
      rw [hadd, List.lookup_cons, List.lookup_cons]
      by_cases hk' : kind' = k
      · subst hk'
        simp [Ne.symm hk]
      · have hne : (kind' == k) = false := by simpa using hk'
        simpa [hne] using ih

/-- Adding a rule under several kinds, each named once, adds it once under each of them. -/
theorem subscribers_addAll (r : Rule) (kinds : List String) (hkinds : kinds.Nodup)
    (table : Subscriptions) (kind : String) :
    (kinds.foldl (fun t k => t.add r k) table).subscribers kind =
      table.subscribers kind ++ if kind ∈ kinds then [r] else [] := by
  induction kinds generalizing table with
  | nil => simp
  | cons k ks ih =>
    obtain ⟨hk, hks⟩ := List.nodup_cons.1 hkinds
    rw [List.foldl_cons, ih hks, subscribers_add, List.append_assoc]
    congr 1
    by_cases heq : k = kind
    · subst heq
      simp [hk]
    · simp [heq, Ne.symm heq]

/-- **The subscribers of a kind** are the rules that subscribe to it, in order. -/
theorem subscribers_ofRules (rules : List Rule) (kind : String) :
    (ofRules rules).subscribers kind = rules.filter fun r => r.kinds.contains kind := by
  have hloop : ∀ table : Subscriptions,
      (rules.foldl (fun table r => (Text.distinct r.kinds).foldl (fun t k => t.add r k) table)
        table).subscribers kind =
        table.subscribers kind ++ rules.filter fun r => r.kinds.contains kind := by
    induction rules with
    | nil => simp
    | cons r rs ih =>
      intro table
      rw [List.foldl_cons, ih, subscribers_addAll r _ (Text.nodup_distinct r.kinds),
        List.append_assoc, List.filter_cons]
      congr 1
      by_cases hr : kind ∈ r.kinds
      · simp [Text.mem_distinct, hr]
      · simp [Text.mem_distinct, hr]
  simpa [ofRules, subscribers] using hloop []

end Subscriptions

/-! ## Genuine calls -/

/-- The call is one of a rule among the given ones, which answered so under some counters. -/
def Call.Genuine (rules : List Rule) (ctx : FileContext) (c : Call) : Prop :=
  c.rule ∈ rules ∧ ∃ s, c.outcome = (c.rule.respond c.occasion ctx s).1

namespace Progress

theorem calls_call (ctx : FileContext) (p : Progress) (r : Rule) (o : Occasion) :
    (p.call ctx r o).calls = ⟨r, o, (r.respond o ctx p.counters).1⟩ :: p.calls := rfl

theorem mem_failed_call (ctx : FileContext) (p : Progress) (r : Rule) (o : Occasion)
    (id : String) :
    id ∈ (p.call ctx r o).failed ↔
      id ∈ p.failed ∨ id = r.info.id ∧ ∃ f, (r.respond o ctx p.counters).1 = .error f := by
  unfold call
  cases hanswer : (r.respond o ctx p.counters).1 with
  | ok fs => simp [hanswer]
  | error f => simp [hanswer, or_comm]

theorem genuine_call {rules : List Rule} {ctx : FileContext} {p : Progress} {r : Rule}
    (hr : r ∈ rules) (o : Occasion) (hp : ∀ c ∈ p.calls, c.Genuine rules ctx) :
    ∀ c ∈ (p.call ctx r o).calls, c.Genuine rules ctx := by
  intro c hc
  rw [calls_call] at hc
  rcases List.mem_cons.1 hc with rfl | hc
  · exact ⟨hr, p.counters, rfl⟩
  · exact hp c hc

theorem genuine_next {rules : List Rule} {ctx : FileContext} {p : Progress}
    {task : Rule × Occasion} (htask : task.1 ∈ rules)
    (hp : ∀ c ∈ p.calls, c.Genuine rules ctx) :
    ∀ c ∈ (p.next ctx task).calls, c.Genuine rules ctx := by
  unfold next
  split
  · exact hp
  · exact genuine_call htask task.2 hp

end Progress

theorem mem_schedule {rules : List Rule} {tree : Tree} {task : Rule × Occasion}
    (h : task ∈ schedule rules tree) : task.1 ∈ rules := by
  simp only [schedule, Subscriptions.subscribers_ofRules, List.mem_append, List.mem_flatMap,
    List.mem_map] at h
  rcases h with ⟨v, -, r, hr, rfl⟩ | ⟨r, hr, rfl⟩
  · exact (List.mem_filter.1 hr).1
  · exact hr

theorem genuine_of_mem_traceOf {rules : List Rule} {ctx : FileContext} {tree : Tree} {c : Call}
    (h : c ∈ traceOf rules ctx tree) : c.Genuine rules ctx := by
  have hrun := List.foldlRecOn (schedule rules tree) (Progress.next ctx) (b := .start)
    (motive := fun p => ∀ c ∈ p.calls, c.Genuine rules ctx)
    (fun c hc => absurd hc List.not_mem_nil)
    (fun p hp task htask => Progress.genuine_next (mem_schedule htask) hp)
  exact hrun c (List.mem_reverse.1 h)

theorem genuine_of_mem_traceUnparsed {rules : List Rule} {ctx : FileContext} {c : Call}
    (h : c ∈ traceUnparsed rules ctx) : c.Genuine rules ctx := by
  have hrun := List.foldlRecOn (rules.filter fun r => r.onUnparsed?.isSome)
    (fun (p : Progress) r => p.call ctx r .unparsed) (b := .start)
    (motive := fun p => ∀ c ∈ p.calls, c.Genuine rules ctx)
    (fun c hc => absurd hc List.not_mem_nil)
    (fun p hp r hr => Progress.genuine_call (List.mem_filter.1 hr).1 .unparsed hp)
  exact hrun c (List.mem_reverse.1 h)

theorem traceUnparsed_able (rules : List Rule) (ctx : FileContext) :
    traceUnparsed (rules.filter fun r => r.onUnparsed?.isSome) ctx = traceUnparsed rules ctx := by
  unfold traceUnparsed
  rw [List.filter_filter]
  simp only [Bool.and_self]

/-! ## Files -/

/-- The calls made for a file, with its tree if it has one. -/
def traceFile (rules : List Rule) (ctx : FileContext) : Option Tree → List Call
  | some tree => traceOf rules ctx tree
  | none => traceUnparsed rules ctx

theorem genuine_of_mem_traceFile {rules : List Rule} {ctx : FileContext} {tree? : Option Tree}
    {c : Call} (h : c ∈ traceFile rules ctx tree?) : c.Genuine rules ctx := by
  cases tree? with
  | some tree => exact genuine_of_mem_traceOf h
  | none => exact genuine_of_mem_traceUnparsed h

theorem Progress.call_congr {ctx ctx' : FileContext} {r : Rule} {o : Occasion}
    (h : ∀ s, r.respond o ctx s = r.respond o ctx' s) (p : Progress) :
    p.call ctx r o = p.call ctx' r o := by
  unfold call
  rw [h]

/-- Two files to which all rules answer alike have the same calls. -/
theorem traceFile_congr {rules : List Rule} {ctx ctx' : FileContext}
    (h : ∀ r ∈ rules, ∀ o s, r.respond o ctx s = r.respond o ctx' s) (tree? : Option Tree) :
    traceFile rules ctx tree? = traceFile rules ctx' tree? := by
  cases tree? with
  | some tree =>
    have hnext : ∀ p, ∀ task ∈ schedule rules tree,
        Progress.next ctx p task = Progress.next ctx' p task := by
      intro p task htask
      unfold Progress.next
      rw [Progress.call_congr (h task.1 (mem_schedule htask) task.2)]
    show ((schedule rules tree).foldl (Progress.next ctx) .start).calls.reverse = _
    rw [List.foldl_ext _ _ _ hnext]
    rfl
  | none =>
    have hcall : ∀ (p : Progress), ∀ r ∈ rules.filter (fun r => r.onUnparsed?.isSome),
        p.call ctx r .unparsed = p.call ctx' r .unparsed := by
      intro p r hr
      exact Progress.call_congr (h r (List.mem_filter.1 hr).1 .unparsed) p
    show ((rules.filter fun r => r.onUnparsed?.isSome).foldl
      (fun p r => p.call ctx r .unparsed) Progress.start).calls.reverse = _
    rw [List.foldl_ext _ _ _ hcall]
    rfl

end SliceLint
