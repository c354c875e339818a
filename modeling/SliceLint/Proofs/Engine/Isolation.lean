import SliceLint.Proofs.Rule.Builtin

/-!
# Rules do not disturb each other

All rules of a run share one traversal, one set of counters, one list of failed names and one list
of findings. Rules with different names and different counters still report what each of them
would report alone.

**The simulation** (`Mirrors`). The run of all rules is compared with the run of some of them,
picked by their names. Both agree on the counters of the picked rules, on which of these have
failed, and on the calls of them. A call of a picked rule keeps the agreement, since its answer
depends on these counters alone; a call of another rule keeps it, since it leaves these counters
and these names as they are.
-/

namespace SliceLint

/-! ## The simulation -/

/-- The run of all rules and the run of some look alike to the rules with the picked names. -/
structure Mirrors (own : Set String) (pick : String → Bool) (all few : Progress) : Prop where
  counters : all.counters.AgreeOn own few.counters
  failed : ∀ id, pick id = true → (id ∈ all.failed ↔ id ∈ few.failed)
  calls : all.calls.filter (fun c => pick c.rule.info.id) = few.calls

namespace Mirrors

variable {own : Set String} {pick : String → Bool} {ctx : FileContext} {all few : Progress}

theorem start (own : Set String) (pick : String → Bool) (s : Counters) :
    Mirrors own pick ⟨s, [], []⟩ ⟨s, [], []⟩ :=
  ⟨fun _ _ => rfl, fun _ _ => Iff.rfl, rfl⟩

/-- A call of a picked rule leads both runs to the same. -/
theorem call_own (h : Mirrors own pick all few) {r : Rule} (hr : r.Confined own)
    (hpick : pick r.info.id = true) (o : Occasion) :
    Mirrors own pick (all.call ctx r o) (few.call ctx r o) := by
  have hanswer := hr.answers o ctx _ _ h.counters
  have hcount := hr.counts o ctx _ _ h.counters
  refine ⟨hcount, fun id hid => ?_, ?_⟩
  · rw [Progress.mem_failed_call, Progress.mem_failed_call, hanswer, h.failed id hid]
  · rw [Progress.calls_call, Progress.calls_call, List.filter_cons, if_pos hpick, h.calls, hanswer]

/-- A call of another rule changes nothing that the picked rules see, if it leaves their counters
alone. -/
theorem call_apart (h : Mirrors own pick all few) {r : Rule} {o : Occasion}
    (hleaves : (r.respond o ctx all.counters).2.AgreeOn own all.counters)
    (hpick : pick r.info.id = false) : Mirrors own pick (all.call ctx r o) few := by
  refine ⟨fun k hk => (hleaves k hk).trans (h.counters k hk), fun id hid => ?_, ?_⟩
  · have hne : id ≠ r.info.id := by
      rintro rfl
      rw [hpick] at hid
      cases hid
    rw [Progress.mem_failed_call, h.failed id hid]
    exact or_iff_left fun herror => hne herror.1
  · rw [Progress.calls_call, List.filter_cons, if_neg (by rw [hpick]; exact Bool.false_ne_true),
      h.calls]

theorem call_other (h : Mirrors own pick all few) {r : Rule} {own' : Set String}
    (hr : r.Confined own') (hapart : ∀ k ∈ own, k ∉ own') (hpick : pick r.info.id = false)
    (o : Occasion) : Mirrors own pick (all.call ctx r o) few :=
  h.call_apart (fun k hk => hr.leaves o ctx all.counters k (hapart k hk)) hpick

theorem next_own (h : Mirrors own pick all few) {r : Rule} (hr : r.Confined own)
    (hpick : pick r.info.id = true) (o : Occasion) :
    Mirrors own pick (all.next ctx (r, o)) (few.next ctx (r, o)) := by
  have hfailed := h.failed _ hpick
  by_cases hfew : r.info.id ∈ few.failed
  · have hall := hfailed.2 hfew
    simpa [Progress.next, hfew, hall] using h
  · have hall : r.info.id ∉ all.failed := fun hf => hfew (hfailed.1 hf)
    simpa [Progress.next, hfew, hall] using h.call_own hr hpick o

theorem next_apart (h : Mirrors own pick all few) {r : Rule} {o : Occasion}
    (hleaves : (r.respond o ctx all.counters).2.AgreeOn own all.counters)
    (hpick : pick r.info.id = false) : Mirrors own pick (all.next ctx (r, o)) few := by
  by_cases hfailed : r.info.id ∈ all.failed
  · simpa [Progress.next, hfailed] using h
  · simpa [Progress.next, hfailed] using h.call_apart hleaves hpick

theorem next_other (h : Mirrors own pick all few) {r : Rule} {own' : Set String}
    (hr : r.Confined own') (hapart : ∀ k ∈ own, k ∉ own') (hpick : pick r.info.id = false)
    (o : Occasion) : Mirrors own pick (all.next ctx (r, o)) few :=
  h.next_apart (fun k hk => hr.leaves o ctx all.counters k (hapart k hk)) hpick

/-- Steps of which those of picked rules keep two runs alike, and those of other rules too. -/
theorem foldl (step : Progress → Rule × Occasion → Progress) {tasks : List (Rule × Occasion)}
    (hown : ∀ task ∈ tasks, pick task.1.info.id = true → ∀ p q, Mirrors own pick p q →
      Mirrors own pick (step p task) (step q task))
    (hother : ∀ task ∈ tasks, pick task.1.info.id = false → ∀ p q, Mirrors own pick p q →
      Mirrors own pick (step p task) q)
    (h : Mirrors own pick all few) :
    Mirrors own pick (tasks.foldl step all)
      ((tasks.filter fun task => pick task.1.info.id).foldl step few) := by
  induction tasks generalizing all few with
  | nil => exact h
  | cons task tasks ih =>
    have hrest := fun {p q} (hpq : Mirrors own pick p q) =>
      ih (fun t ht => hown t (List.mem_cons_of_mem _ ht))
        (fun t ht => hother t (List.mem_cons_of_mem _ ht)) hpq
    cases hpick : pick task.1.info.id with
    | true =>
      rw [List.filter_cons, if_pos hpick, List.foldl_cons, List.foldl_cons]
      exact hrest (hown task List.mem_cons_self hpick all few h)
    | false =>
      rw [List.filter_cons, if_neg (by rw [hpick]; exact Bool.false_ne_true), List.foldl_cons]
      exact hrest (hother task List.mem_cons_self hpick all few h)

end Mirrors

/-! ## Traces -/

section Traces

variable {own : String → Set String} {rules : List Rule}

/-- The counters of the rules with the picked names. -/
def pickedCounters (own : String → Set String) (rules : List Rule) (pick : String → Bool) :
    Set String :=
  {key | ∃ r ∈ rules, pick r.info.id = true ∧ key ∈ own r.info.id}

namespace Independent

theorem confined_picked (h : Independent own rules) {pick : String → Bool} {r : Rule}
    (hr : r ∈ rules) (hpick : pick r.info.id = true) :
    r.Confined (pickedCounters own rules pick) :=
  (h.confined r hr).mono fun _ hkey => ⟨r, hr, hpick, hkey⟩

theorem notMem_of_picked (h : Independent own rules) {pick : String → Bool} {r : Rule}
    (hr : r ∈ rules) (hpick : pick r.info.id = false) :
    ∀ key ∈ pickedCounters own rules pick, key ∉ own r.info.id := by
  rintro key ⟨r', hr', hpick', hkey'⟩ hkey
  have hid : r'.info.id ≠ r.info.id := by
    intro heq
    rw [heq, hpick] at hpick'
    cases hpick'
  exact h.apart r' hr' r hr hid key hkey' hkey

end Independent

/-- The tasks of some rules are those they have without the others. -/
theorem schedule_filter (rules : List Rule) (pick : String → Bool) (tree : Tree) :
    ((schedule rules tree).filter fun task => pick task.1.info.id) =
      schedule (rules.filter fun r => pick r.info.id) tree := by
  have hnode : ∀ v : Visit,
      (((Subscriptions.ofRules rules).subscribers v.node.kind).map fun r =>
        (r, Occasion.node v)).filter (fun task => pick task.1.info.id) =
        ((Subscriptions.ofRules (rules.filter fun r => pick r.info.id)).subscribers
          v.node.kind).map fun r => (r, .node v) := by
    intro v
    rw [Subscriptions.subscribers_ofRules, Subscriptions.subscribers_ofRules, List.filter_map,
      List.filter_filter, List.filter_filter]
    congr 1
    exact List.filter_congr fun r _ => Bool.and_comm _ _
  unfold schedule
  rw [List.filter_append, List.filter_flatMap, List.filter_map]
  congr 1
  exact congrArg (fun f => tree.walk.flatMap f) (funext hnode)

/-- **Calls of some rules.** In the trace of all rules the calls of the picked ones are those of
the trace without the others. -/
theorem traceOf_filter (h : Independent own rules) (pick : String → Bool) (ctx : FileContext)
    (tree : Tree) :
    (traceOf rules ctx tree).filter (fun c => pick c.rule.info.id) =
      traceOf (rules.filter fun r => pick r.info.id) ctx tree := by
  have hrun : Mirrors (pickedCounters own rules pick) pick
      ((schedule rules tree).foldl (Progress.next ctx) .start)
      ((schedule (rules.filter fun r => pick r.info.id) tree).foldl (Progress.next ctx)
        .start) := by
    rw [← schedule_filter]
    refine Mirrors.foldl (Progress.next ctx) (fun task htask hpick p q hpq => ?_)
      (fun task htask hpick p q hpq => ?_) (Mirrors.start _ pick _)
    · exact hpq.next_own (h.confined_picked (mem_schedule htask) hpick) hpick task.2
    · have hmem := mem_schedule htask
      exact hpq.next_other (h.confined _ hmem) (h.notMem_of_picked hmem hpick) hpick task.2
  unfold traceOf
  rw [List.filter_reverse, hrun.calls]

theorem traceUnparsed_eq (rules : List Rule) (ctx : FileContext) :
    traceUnparsed rules ctx =
      (((rules.filter fun r => r.onUnparsed?.isSome).map fun r => (r, Occasion.unparsed)).foldl
        (fun p task => p.call ctx task.1 task.2) Progress.start).calls.reverse := by
  rw [List.foldl_map]
  rfl

theorem traceUnparsed_filter (h : Independent own rules) (pick : String → Bool)
    (ctx : FileContext) :
    (traceUnparsed rules ctx).filter (fun c => pick c.rule.info.id) =
      traceUnparsed (rules.filter fun r => pick r.info.id) ctx := by
  have htasks : ((rules.filter fun r => r.onUnparsed?.isSome).map fun r =>
      (r, Occasion.unparsed)).filter (fun task => pick task.1.info.id) =
      ((rules.filter fun r => pick r.info.id).filter fun r => r.onUnparsed?.isSome).map fun r =>
        (r, Occasion.unparsed) := by
    rw [List.filter_map, List.filter_filter, List.filter_filter]
    congr 1
    exact List.filter_congr fun r _ => Bool.and_comm _ _
  have hrun : Mirrors (pickedCounters own rules pick) pick
      (((rules.filter fun r => r.onUnparsed?.isSome).map fun r => (r, Occasion.unparsed)).foldl
        (fun p task => p.call ctx task.1 task.2) Progress.start)
      ((((rules.filter fun r => pick r.info.id).filter fun r =>
        r.onUnparsed?.isSome).map fun r => (r, Occasion.unparsed)).foldl
        (fun p task => p.call ctx task.1 task.2) Progress.start) := by
    rw [← htasks]
    refine Mirrors.foldl _ (fun task htask hpick p q hpq => ?_)
      (fun task htask hpick p q hpq => ?_) (Mirrors.start _ pick _)
    · obtain ⟨r, hr, rfl⟩ := List.mem_map.1 htask
      exact hpq.call_own (h.confined_picked (List.mem_filter.1 hr).1 hpick) hpick _
    · obtain ⟨r, hr, rfl⟩ := List.mem_map.1 htask
      have hmem := (List.mem_filter.1 hr).1
      exact hpq.call_other (h.confined r hmem) (h.notMem_of_picked hmem hpick) hpick _
  rw [traceUnparsed_eq, traceUnparsed_eq, List.filter_reverse, hrun.calls]

theorem traceFile_filter (h : Independent own rules) (pick : String → Bool) (ctx : FileContext)
    (tree? : Option Tree) :
    (traceFile rules ctx tree?).filter (fun c => pick c.rule.info.id) =
      traceFile (rules.filter fun r => pick r.info.id) ctx tree? := by
  cases tree? with
  | some tree => exact traceOf_filter h pick ctx tree
  | none => exact traceUnparsed_filter h pick ctx

theorem traceFile_filter_id (h : Independent own rules) {r : Rule} (hr : r ∈ rules)
    (ctx : FileContext) (tree? : Option Tree) :
    (traceFile rules ctx tree?).filter (fun c => c.rule.info.id == r.info.id) =
      traceFile [r] ctx tree? := by
  rw [← h.filter_id hr]
  exact traceFile_filter h (· == r.info.id) ctx tree?

theorem findings_filter (pick : String → Bool) (calls : List Call) :
    (calls.flatMap Call.findings).filter (fun found => pick found.1.info.id) =
      (calls.filter fun c => pick c.rule.info.id).flatMap Call.findings := by
  have hcall : ∀ c : Call, c.findings.filter (fun found => pick found.1.info.id) =
      if pick c.rule.info.id then c.findings else [] := by
    intro c
    split_ifs with hpick
    · rw [List.filter_eq_self]
      intro found hfound
      rw [Call.rule_of_mem_findings hfound]
      exact hpick
    · rw [List.filter_eq_nil_iff]
      intro found hfound
      rw [Call.rule_of_mem_findings hfound]
      exact hpick
  induction calls with
  | nil => rfl
  | cons c calls ih =>
    rw [List.flatMap_cons, List.filter_append, ih, hcall, List.filter_cons]
    split_ifs with hpick
    · rw [List.flatMap_cons]
    · rw [List.nil_append]

end Traces

/-! ## Reports -/

namespace Engine

variable {own : String → Set String} {e : Engine} {relPath : String} {lines : List String}

/-- Of the violations of a file, those of the picked rules report the findings of the calls of
these rules. -/
theorem reports_picked {calls : List Call} {vs : List Violation} (pick : String → Bool)
    (h : List.Forall₂ (e.Reports relPath lines) (calls.flatMap Call.findings) vs) :
    List.Forall₂ (e.Reports relPath lines)
      ((calls.filter fun c => pick c.rule.info.id).flatMap Call.findings)
      (vs.filter fun v => pick v.rule) := by
  rw [← findings_filter]
  exact reports_filter (fun hreport => by rw [hreport.rule_eq]) h

end Engine

/-- **Isolation.** Among the violations of a file those of one rule are the violations of the
engine that has this rule alone, in the same order and up to their numbers. It does not matter
which other rules there are, what they find, where they fail, and in what order the rules are
given. -/
theorem report_isolated {own : String → Set String} {e : Engine} {r : Rule}
    (h : Independent own e.rules) (hr : r ∈ e.rules) (ctx : FileContext) :
    (∀ d tree, ∃ alone, { e with rules := [r] }.reportParsed ctx d tree = .ok alone ∧
      ∀ order, order.Perm e.rules →
        ∃ all, { e with rules := order }.reportParsed ctx d tree = .ok all ∧
          List.Forall₂ Violation.SameButNumber
            (all.violations.filter fun v => v.rule == r.info.id) alone.violations) ∧
    (∀ first note, ∃ alone log,
      { e with rules := [r] }.reportUnparsed ctx first note = .ok ⟨first :: alone, log⟩ ∧
      ∀ order, order.Perm e.rules →
        ∃ all log', { e with rules := order }.reportUnparsed ctx first note =
            .ok ⟨first :: all, log'⟩ ∧
          List.Forall₂ Violation.SameButNumber
            (all.filter fun v => v.rule == r.info.id) alone) := by
  have halone : ∀ r' ∈ [r], r'.Declares := by
    intro r' hr'
    rw [List.mem_singleton.1 hr']
    exact h.declares r hr
  constructor
  · intro d tree
    obtain ⟨alone, hreport, hws⟩ :=
      Engine.exists_reportParsed (e := { e with rules := [r] }) halone ctx d tree
    refine ⟨alone, hreport, fun order hperm => ?_⟩
    have horder := h.perm hperm
    obtain ⟨all, hall, hvs⟩ :=
      Engine.exists_reportParsed (e := { e with rules := order }) horder.declares ctx d tree
    refine ⟨all, hall, ?_⟩
    have hpicked := Engine.reports_picked (· == r.info.id) hvs
    have hcalls : (traceOf order ctx tree).filter (fun c => c.rule.info.id == r.info.id) =
        traceOf [r] ctx tree :=
      traceFile_filter_id horder (hperm.mem_iff.2 hr) ctx (some tree)
    rw [hcalls] at hpicked
    exact Engine.forall₂_sameButNumber hpicked hws
  · intro first note
    obtain ⟨alone, log, hreport, hws⟩ :=
      Engine.exists_reportUnparsed (e := { e with rules := [r] }) halone ctx first note
    refine ⟨alone, log, hreport, fun order hperm => ?_⟩
    have horder := h.perm hperm
    obtain ⟨all, log', hall, hvs⟩ :=
      Engine.exists_reportUnparsed (e := { e with rules := order }) horder.declares ctx first note
    refine ⟨all, log', hall, ?_⟩
    have hpicked := Engine.reports_picked (· == r.info.id) hvs
    have hcalls : (traceUnparsed order ctx).filter (fun c => c.rule.info.id == r.info.id) =
        traceUnparsed [r] ctx :=
      traceFile_filter_id horder (hperm.mem_iff.2 hr) ctx none
    rw [hcalls] at hpicked
    exact Engine.forall₂_sameButNumber hpicked hws

/-! ## A run in which a rule fails -/

namespace Shop

/-- The built-in rules as they stand when nothing is configured. -/
def engine : Engine := ⟨Builtin.all.map Builtin.standard, []⟩

/-- A disk that answers no question. -/
def mute : FileView where
  isFile := fun _ => .error ⟨"OSError", "no answer"⟩
  readText := fun _ => .error ⟨"OSError", "no answer"⟩

/-- A disk with one file. -/
def apiAlone : FileView where
  isFile := fun path => .ok (path == "/shop/app/features/cart/api.ts")
  readText := fun _ => .ok ""

/-- Whatever is read imports a page. -/
def pageImport (_path : String) : Except Fault String := .ok "import '~/pages/home/ui';\n"

/-- A file of a feature on the first disk. -/
def cartFile : FileContext where
  path := "/shop/app/features/cart/api.ts"
  relPath := "app/features/cart/api.ts"
  text := ""
  coordinate := some ⟨.features, some "cart"⟩
  run := .build "/shop" "app" [] .standard [] mute

/-- The tree of a module with two default exports. -/
def twoDefaults : Tree :=
  .branch programKind "" .origin
    (List.replicate 2 (.branch "export_statement" "" .origin
      [.leaf "default" false "default" .origin]))

end Shop

/-- The rule on slices fails at the root, and default exports are reported all the same. -/
theorem report_isolated_mute :
    (traceOf Shop.engine.rules Shop.cartFile Shop.twoDefaults).any
        (fun c => !c.outcome.toOption.isSome) = true ∧
      ∃ alone all, { Shop.engine with rules := [Builtin.standard .componentShape] }.reportParsed
          Shop.cartFile .plain Shop.twoDefaults = .ok alone ∧
        { Shop.engine with rules := Shop.engine.rules.reverse }.reportParsed
          Shop.cartFile .plain Shop.twoDefaults = .ok all ∧
        List.Forall₂ Violation.SameButNumber
          (all.violations.filter fun v => v.rule == (Builtin.standard .componentShape).info.id)
          alone.violations := by
  refine ⟨by decide +kernel, ?_⟩
  have hrules : Config.standard.enabledRules =
      .ok (Builtin.all.map ConfiguredRule.standard) := rfl
  have hindependent : Independent Builtin.counters Shop.engine.rules :=
    Config.independent hrules
  have hmem : Builtin.standard .componentShape ∈ Shop.engine.rules :=
    List.mem_map_of_mem (by decide)
  obtain ⟨alone, halone, hall⟩ :=
    (report_isolated hindependent hmem Shop.cartFile).1 .plain Shop.twoDefaults
  obtain ⟨all, hreport, hsame⟩ := hall _ (List.reverse_perm _)
  exact ⟨alone, all, halone, hreport, hsame⟩

end SliceLint
