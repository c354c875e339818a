import SliceLint.Proofs.Project.Run
import SliceLint.Proofs.Engine.Failure
import SliceLint.Proofs.Source.Preorder

/-!
# Default exports are counted file by file

The rule on the shape of components counts the default exports of a file under a key, and reports
every one from the second on. When the file is left the count is forgotten.

**What there is to report** (`shapeFindings`). The default exports of a tree but the first, in the
order of the document, and the lines of the file if there are too many.

**The count** (`Counted`). After some nodes, the count has grown by the default exports among them,
and the exports that were found are those that came after the first.

**Other rules** (`Undisturbed`). Other rules may do what they like, and may fail, as long as they
have other names and leave the count alone. So one file after another gives what there is to report
of it (`default_exports_counted`), even if the counters were handed on from file to file.
-/

namespace SliceLint.ComponentShape

/-! ## What there is to report -/

/-- The default exports of a tree, in the order of the document. -/
def defaultExports (tree : Tree) : List Visit :=
  (tree.preorder []).filter fun v => v.node.exportsDefault

/-- The finding for a default export that is not the first. -/
def repeatedExport (v : Visit) : Finding :=
  ⟨"multipleDefaultExports", v.node.start, "export \x7b Name \x7d", []⟩

/-- The finding for a number of lines beyond the limit. -/
def tooManyLines (limit lines : Nat) : Finding :=
  ⟨"tooManyLines", .origin, "Extract sub-components into sibling files",
    [("lines", .number lines), ("maxLines", .number limit)]⟩

/-- What there is to report of a file. -/
def shapeFindings (limit : Nat) (ctx : FileContext) (tree : Tree) : List Finding :=
  (if FileKind.isTest ctx.relPath then [] else (defaultExports tree).tail.map repeatedExport) ++
    if FileKind.inUi ctx.relPath ∧ FileKind.isComponent ctx.relPath ∧
        FileKind.isTest ctx.relPath = false ∧ limit < ctx.lines.length then
      [tooManyLines limit ctx.lines.length] else []

theorem checkLines_eq (limit : Nat) (ctx : FileContext) : checkLines limit ctx =
    if FileKind.inUi ctx.relPath ∧ FileKind.isComponent ctx.relPath ∧
        FileKind.isTest ctx.relPath = false ∧ limit < ctx.lines.length then
      [tooManyLines limit ctx.lines.length] else [] := by
  rw [checkLines]
  refine if_congr ?_ rfl rfl
  simp only [isLimited, Bool.and_eq_true, Bool.not_eq_true', decide_eq_true_eq, and_assoc]

/-! ## One node after another -/

/-- The nodes among some that are counted in a file. -/
def counted (ctx : FileContext) (vs : List Visit) : List Visit :=
  vs.filter fun v => v.node.exportsDefault && !FileKind.isTest ctx.relPath

/-- The findings of the calls so far, in order. -/
def foundBy (p : Progress) : List (Rule × Finding) := p.calls.reverse.flatMap Call.findings

theorem foundBy_call {ctx : FileContext} {p : Progress} {r : Rule} {o : Occasion}
    {fs : List Finding} (h : (r.respond o ctx p.counters).1 = .ok fs) :
    foundBy (p.call ctx r o) = foundBy p ++ fs.map fun f => (r, f) := by
  rw [foundBy, Progress.calls_call, List.reverse_cons, List.flatMap_append, List.flatMap_singleton,
    Call.findings_of_ok h, foundBy]

theorem failed_call {ctx : FileContext} {p : Progress} {r : Rule} {o : Occasion}
    {fs : List Finding} (h : (r.respond o ctx p.counters).1 = .ok fs) :
    (p.call ctx r o).failed = p.failed := by
  simp only [Progress.call, h]

/-- Between two stages of a run the rule has come past some nodes. -/
structure Counted (limit : Nat) (ctx : FileContext) (vs : List Visit) (p q : Progress) : Prop where
  failed : q.failed = p.failed
  count : q.counters.get exportsKey = p.counters.get exportsKey + (counted ctx vs).length
  found : foundBy q = foundBy p ++
    ((counted ctx vs).drop (1 - p.counters.get exportsKey)).map fun v =>
      (rule limit, repeatedExport v)

variable {limit : Nat} {ctx : FileContext} {p q r : Progress} {v : Visit} {vs ws : List Visit}

theorem onNode_of_not_counted (h : (v.node.exportsDefault && !FileKind.isTest ctx.relPath) = false)
    (s : Counters) : onNode v ctx s = (.ok [], s) := by
  rw [onNode, if_pos]
  rw [Bool.or_eq_true, Bool.not_eq_true']
  rwa [Bool.and_eq_false_iff, Bool.not_eq_false'] at h

theorem onNode_of_counted (h : (v.node.exportsDefault && !FileKind.isTest ctx.relPath) = true)
    (s : Counters) : onNode v ctx s =
      (.ok (if s.get exportsKey = 0 then [] else [repeatedExport v]), s.increment exportsKey) := by
  rw [Bool.and_eq_true, Bool.not_eq_true'] at h
  have hcount : (s.increment exportsKey).get exportsKey = s.get exportsKey + 1 :=
    Counters.get_set_self _ _ _
  simp only [onNode, h.1, h.2, Bool.not_true, Bool.or_false, Bool.false_eq_true, if_false, hcount]
  by_cases hzero : s.get exportsKey = 0
  · rw [if_pos hzero, if_neg (by omega)]
  · rw [if_neg hzero, if_pos (by omega)]
    rfl

namespace Counted

theorem nil (p : Progress) : Counted limit ctx [] p p where
  failed := rfl
  count := rfl
  found := by rw [counted, List.filter_nil, List.drop_nil, List.map_nil, List.append_nil]

theorem step (p : Progress) (v : Visit) :
    Counted limit ctx [v] p (p.call ctx (rule limit) (.node v)) := by
  cases hv : v.node.exportsDefault && !FileKind.isTest ctx.relPath with
  | false =>
    have hnone : counted ctx [v] = [] := by simp [counted, hv]
    have hrespond : (rule limit).respond (.node v) ctx p.counters = (.ok [], p.counters) :=
      onNode_of_not_counted hv p.counters
    have hok := congrArg Prod.fst hrespond
    refine ⟨failed_call hok, ?_, ?_⟩
    · rw [hnone]
      exact congrArg (fun answer => answer.2.get exportsKey) hrespond
    · rw [foundBy_call hok, hnone, List.drop_nil, List.map_nil, List.map_nil]
  | true =>
    have hone : counted ctx [v] = [v] := by simp [counted, hv]
    have hrespond : (rule limit).respond (.node v) ctx p.counters = _ :=
      onNode_of_counted hv p.counters
    have hok := congrArg Prod.fst hrespond
    refine ⟨failed_call hok, ?_, ?_⟩
    · rw [hone]
      exact (congrArg (fun answer => answer.2.get exportsKey) hrespond).trans
        (Counters.get_set_self _ _ _)
    · rw [foundBy_call hok, hone]
      by_cases hzero : p.counters.get exportsKey = 0
      · rw [if_pos hzero, hzero]
        rfl
      · rw [if_neg hzero, show 1 - p.counters.get exportsKey = 0 by omega]
        rfl

theorem trans (h : Counted limit ctx vs p q) (h' : Counted limit ctx ws q r) :
    Counted limit ctx (vs ++ ws) p r where
  failed := h'.failed.trans h.failed
  count := by
    rw [h'.count, h.count, counted, counted, counted, List.filter_append, List.length_append,
      Nat.add_assoc]
  found := by
    rw [h'.found, h.found, h.count, ← Nat.sub_sub, List.append_assoc, ← List.map_append,
      ← List.drop_append, counted, counted, counted, List.filter_append]

/-- Coming past node after node, where the rule has not failed. -/
theorem foldl (hfailed : info.id ∉ p.failed) (vs : List Visit) :
    Counted limit ctx vs p
      ((vs.map fun v => (rule limit, Occasion.node v)).foldl (Progress.next ctx) p) := by
  induction vs generalizing p with
  | nil => exact .nil p
  | cons v vs ih =>
    have hstep : Counted limit ctx [v] p (p.call ctx (rule limit) (.node v)) := .step p v
    have hnext : Progress.next ctx p (rule limit, .node v) = p.call ctx (rule limit) (.node v) := by
      rw [Progress.next, if_neg]
      rwa [List.contains_iff_mem]
    rw [List.map_cons, List.foldl_cons, hnext]
    exact hstep.trans (ih (hstep.failed ▸ hfailed))

end Counted

/-! ## One file -/

/-- The progress at the end of a file, where the counters stood at something before. -/
def through (rules : List Rule) (ctx : FileContext) (tree : Tree) (s : Counters) : Progress :=
  (schedule rules tree).foldl (Progress.next ctx) ⟨s, [], []⟩

theorem schedule_alone (limit : Nat) (tree : Tree) : schedule [rule limit] tree =
    ((tree.walk.filter fun v => v.node.kind == "export_statement").map fun v =>
      (rule limit, Occasion.node v)) ++ [(rule limit, .exit)] := by
  have hnode : ∀ v : Visit, ([rule limit].filter fun r => r.kinds.contains v.node.kind).map
      (fun r => (r, Occasion.node v)) =
        if v.node.kind == "export_statement" then [(rule limit, .node v)] else [] := by
    intro v
    have hkinds : (rule limit).kinds.contains v.node.kind =
        (v.node.kind == "export_statement") := by
      rw [rule, List.contains_cons, List.contains_nil, Bool.or_false]
    rw [List.filter_cons, hkinds]
    split <;> rfl
  simp only [schedule, Subscriptions.subscribers_ofRules, hnode]
  rw [← flatMap_filter_eq, ← List.map_eq_flatMap]
  rfl

theorem counted_exports (ctx : FileContext) (tree : Tree) :
    counted ctx (tree.walk.filter fun v => v.node.kind == "export_statement") =
      if FileKind.isTest ctx.relPath then [] else defaultExports tree := by
  rw [counted, Tree.walk_eq_preorder, List.filter_filter]
  split
  · rename_i htest
    simp [htest]
  · rename_i htest
    refine List.filter_congr fun v _ => ?_
    rw [Bool.not_eq_true] at htest
    rw [htest, Tree.exportsDefault]
    cases v.node.kind == "export_statement" <;> simp

/-- On its own the rule reports what there is to report, and forgets what it counted. -/
theorem through_alone (limit : Nat) {s : Counters} (hs : s.get exportsKey = 0)
    (ctx : FileContext) (tree : Tree) :
    foundBy (through [rule limit] ctx tree s) =
        (shapeFindings limit ctx tree).map (fun f => (rule limit, f)) ∧
      (through [rule limit] ctx tree s).counters.get exportsKey = 0 := by
  have hnodes : Counted limit ctx _ ⟨s, [], []⟩ _ := .foldl List.not_mem_nil
    (tree.walk.filter fun v => v.node.kind == "export_statement")
  have hexit : ∀ p : Progress,
      ((rule limit).respond .exit ctx p.counters).1 = .ok (checkLines limit ctx) := fun _ => rfl
  rw [through, schedule_alone, List.foldl_append, List.foldl_cons, List.foldl_nil, Progress.next,
    if_neg]
  · refine ⟨?_, Counters.get_clear_self _ _⟩
    rw [foundBy_call (hexit _), hnodes.found, counted_exports, hs, checkLines_eq, shapeFindings,
      List.map_append]
    congr 1
    split
    · rfl
    · rw [Nat.sub_zero, List.drop_one, List.map_map]
      rfl
  · rw [hnodes.failed, List.contains_iff_mem]
    exact List.not_mem_nil

/-! ## Other rules -/

/-- The rule stands once among rules. The others have other names and leave the count of default
exports alone, whatever they find and wherever they fail. -/
structure Undisturbed (limit : Nat) (rules : List Rule) : Prop where
  once : rules.filter (fun r => r.info.id == info.id) = [rule limit]
  leaves : ∀ r ∈ rules, r.info.id ≠ info.id → ∀ o ctx s,
    (r.respond o ctx s).2.get exportsKey = s.get exportsKey

theorem undisturbed_of_independent {own : String → Set String} {rules : List Rule}
    (h : Independent own rules) (hrule : rule limit ∈ rules) : Undisturbed limit rules where
  once := h.filter_id hrule
  leaves := by
    intro r hr hid o ctx s
    have hown : exportsKey ∈ own info.id := by
      by_contra hnot
      have hkept := (h.confined _ hrule).leaves .exit ctx (Counters.empty.set exportsKey 1) _ hnot
      rw [Counters.get_set_self] at hkept
      have hcleared : ((rule limit).respond .exit ctx
          (Counters.empty.set exportsKey 1)).2.get exportsKey = 0 := Counters.get_clear_self _ _
      rw [hcleared] at hkept
      cases hkept
    exact (h.confined r hr).leaves o ctx s _ (h.apart _ hrule r hr (Ne.symm hid) _ hown)

variable {rules : List Rule}

/-- To the rule it makes no difference which other rules there are. -/
theorem mirrors_through (h : Undisturbed limit rules) (ctx : FileContext) (tree : Tree)
    (s : Counters) : Mirrors {exportsKey} (· == info.id) (through rules ctx tree s)
      (through [rule limit] ctx tree s) := by
  rw [through, through, ← h.once, ← schedule_filter rules (· == info.id)]
  refine Mirrors.foldl (Progress.next ctx) (fun task htask hpick p q hpq => ?_)
    (fun task htask hpick p q hpq => ?_) (Mirrors.start _ _ s)
  · have hmem : task.1 ∈ rules.filter fun r => r.info.id == info.id :=
      List.mem_filter.2 ⟨mem_schedule htask, hpick⟩
    rw [h.once, List.mem_singleton] at hmem
    exact hpq.next_own (hmem ▸ confined_rule limit) hpick task.2
  · refine hpq.next_apart (fun k hk => ?_) hpick
    rw [Set.mem_singleton_iff.1 hk]
    exact h.leaves _ (mem_schedule htask) (by simpa using hpick) _ _ _

/-! ## One file after another -/

/-- The findings of calls that bear the name of the rule. -/
def reported (calls : List Call) : List (Rule × Finding) :=
  (calls.flatMap Call.findings).filter fun found => found.1.info.id == info.id

/-- The calls made over files with trees, one after another, if each file took over the counters
of the one before. -/
def tracesFrom (rules : List Rule) : Counters → List (FileContext × Tree) → List (List Call)
  | _, [] => []
  | s, (ctx, tree) :: files =>
    (through rules ctx tree s).calls.reverse ::
      tracesFrom rules (through rules ctx tree s).counters files

theorem reported_through (h : Undisturbed limit rules) {s : Counters}
    (hs : s.get exportsKey = 0) (ctx : FileContext) (tree : Tree) :
    reported (through rules ctx tree s).calls.reverse =
        (shapeFindings limit ctx tree).map (fun f => (rule limit, f)) ∧
      (through rules ctx tree s).counters.get exportsKey = 0 := by
  have hmirrors := mirrors_through h ctx tree s
  obtain ⟨hfound, hcount⟩ := through_alone limit hs ctx tree
  refine ⟨?_, (hmirrors.counters exportsKey rfl).trans hcount⟩
  rw [← hfound, foundBy, ← hmirrors.calls, ← List.filter_reverse]
  exact findings_filter (· == info.id) _

theorem reported_traceOf (h : Undisturbed limit rules) (ctx : FileContext) (tree : Tree) :
    reported (traceOf rules ctx tree) =
      (shapeFindings limit ctx tree).map fun f => (rule limit, f) :=
  (reported_through h rfl ctx tree).1

theorem reported_tracesFrom (h : Undisturbed limit rules) (files : List (FileContext × Tree))
    {s : Counters} (hs : s.get exportsKey = 0) :
    (tracesFrom rules s files).map reported = files.map fun file =>
      (shapeFindings limit file.1 file.2).map fun f => (rule limit, f) := by
  induction files generalizing s with
  | nil => rfl
  | cons file files ih =>
    obtain ⟨ctx, tree⟩ := file
    obtain ⟨hfound, hcount⟩ := reported_through h hs ctx tree
    rw [tracesFrom, List.map_cons, List.map_cons, hfound, ih hcount]

/-! ## Runs -/

theorem reported_traceUnparsed (h : Undisturbed limit rules) (ctx : FileContext) :
    reported (traceUnparsed rules ctx) = [] := by
  rw [reported, List.filter_eq_nil_iff]
  intro found hfound hid
  obtain ⟨c, hc, hfound⟩ := List.mem_flatMap.1 hfound
  rw [Call.rule_of_mem_findings hfound] at hid
  rw [← traceUnparsed_able] at hc
  obtain ⟨hrule, hable⟩ := List.mem_filter.1 (genuine_of_mem_traceUnparsed hc).1
  have hmem : c.rule ∈ rules.filter fun r => r.info.id == info.id :=
    List.mem_filter.2 ⟨hrule, hid⟩
  rw [h.once, List.mem_singleton] at hmem
  rw [hmem] at hable
  cases hable

/-- The text of a file, or none where it cannot be read. -/
def textOf : Except Fault String → String
  | .ok text => text
  | .error _ => ""

/-- What there is to report of a file of a run: nothing, if it has no tree. -/
def findingsIn [SourceReader] (limit : Nat) (run : RunContext) (file : String)
    (text : Except Fault String) : List Finding :=
  match treeOf? (Path.below run.projectRoot file) text with
  | some tree => shapeFindings limit (.inRun run file (textOf text)) tree
  | none => []

section Runs

variable {e : Engine} {read : String → Except Fault String} {run : RunContext} {file : String}

theorem filter_found_parsed [SourceReader] (h : Undisturbed limit e.rules)
    (hrules : ∀ r ∈ e.rules, r.Declares) {text : String} {d : Dialect} {tree : Tree}
    (hreport : e.report (Path.below run.projectRoot file) file run
      (read (Path.below run.projectRoot file)) = e.reportParsed (.inRun run file text) d tree) :
    List.Forall₂ (e.Reports file (Text.lines text))
      ((shapeFindings limit (.inRun run file text) tree).map fun f => (rule limit, f))
      ((e.found read run file).filter fun v => v.rule == info.id) := by
  obtain ⟨report, hparsed, hviolations⟩ :=
    Engine.exists_reportParsed hrules (.inRun run file text) d tree
  rw [Engine.found_of_report (hreport.trans hparsed), ← reported_traceOf h, reported,
    findings_filter (· == info.id)]
  exact Engine.reports_picked (· == info.id) hviolations

theorem filter_found_unparsed [SourceReader] (h : Undisturbed limit e.rules)
    (hrules : ∀ r ∈ e.rules, r.Declares) {ctx : FileContext} {first : Violation} {note : String}
    (hfirst : first.rule = parseRule)
    (hreport : e.report (Path.below run.projectRoot file) file run
      (read (Path.below run.projectRoot file)) = e.reportUnparsed ctx first note) :
    (e.found read run file).filter (fun v => v.rule == info.id) = [] := by
  obtain ⟨vs, log, hunparsed, hviolations⟩ := Engine.exists_reportUnparsed hrules ctx first note
  have hpicked := Engine.reports_picked (· == info.id) hviolations
  have hnone : ((traceUnparsed e.rules ctx).filter fun c => c.rule.info.id == info.id).flatMap
      Call.findings = [] :=
    (findings_filter (· == info.id) _).symm.trans (reported_traceUnparsed h ctx)
  rw [hnone, List.forall₂_nil_left_iff] at hpicked
  rw [Engine.found_of_report (hreport.trans hunparsed), List.filter_cons, hfirst, hpicked]
  exact if_neg (by decide)

/-- In a run the violations under the name of the rule say what there is to report. -/
theorem forall₂_found [SourceReader] (h : Undisturbed limit e.rules)
    (hrules : ∀ r ∈ e.rules, r.Declares) (read : String → Except Fault String) (run : RunContext)
    (file : String) :
    List.Forall₂ (e.Reports file (Text.lines (textOf (read (Path.below run.projectRoot file)))))
      ((findingsIn limit run file (read (Path.below run.projectRoot file))).map fun f =>
        (rule limit, f))
      ((e.found read run file).filter fun v => v.rule == info.id) := by
  rcases Engine.report_cases (Path.below run.projectRoot file) file
    (read (Path.below run.projectRoot file)) with
      ⟨hnone, text, message, line, column, shown, note, hreport⟩ | ⟨-, -, tree, htree, -, -⟩
  · rw [findingsIn, hnone, filter_found_unparsed h hrules rfl (hreport e run)]
    exact .nil
  · obtain ⟨text, d, hread, hparsed⟩ := treeOf?_eq_some_iff.1 htree
    have hreport : e.report (Path.below run.projectRoot file) file run
        (read (Path.below run.projectRoot file)) =
          e.reportParsed (.inRun run file text) d tree := by
      rw [hread]
      exact Engine.report_of_readSource hparsed
    rw [findingsIn, htree, hread]
    exact filter_found_parsed h hrules hreport

end Runs

/-- **Counting.** Whatever other rules with other names and counters do, the rule reports the
default exports of every tree from the second on, and too many lines. It reports the same of files
one after another, even if the counters were handed on; and so do the violations of a run. -/
theorem default_exports_counted [SourceReader] {e : Engine} (h : Undisturbed limit e.rules) :
    (∀ ctx tree, reported (traceOf e.rules ctx tree) =
      (shapeFindings limit ctx tree).map fun f => (rule limit, f)) ∧
    (∀ files s, s.get exportsKey = 0 → (tracesFrom e.rules s files).map reported =
      files.map fun file => (shapeFindings limit file.1 file.2).map fun f => (rule limit, f)) ∧
    ((∀ r ∈ e.rules, r.Declares) → ∀ read run files,
      (e.reports read run files).value = .ok (files.flatMap (e.found read run)) ∧
      ∀ file ∈ files, List.Forall₂
        (e.Reports file (Text.lines (textOf (read (Path.below run.projectRoot file)))))
        ((findingsIn limit run file (read (Path.below run.projectRoot file))).map fun f =>
          (rule limit, f))
        ((e.found read run file).filter fun v => v.rule == info.id)) := by
  refine ⟨reported_traceOf h, fun files s hs => reported_tracesFrom h files hs,
    fun hrules read run files => ?_⟩
  exact ⟨e.value_reports hrules read run files,
    fun file _ => forall₂_found h hrules read run file⟩

/-- Two files with two default exports each, over which the rule on slices fails. -/
theorem default_exports_counted_shop :
    (reported (traceOf Shop.engine.rules Shop.cartFile Shop.twoDefaults)).map
        (fun found => found.2.messageId) = ["multipleDefaultExports"] ∧
      (tracesFrom Shop.engine.rules (Counters.empty.set "visits" 3)
        (List.replicate 2 (Shop.cartFile, Shop.twoDefaults))).map reported =
          List.replicate 2 (reported (traceOf Shop.engine.rules Shop.cartFile Shop.twoDefaults)) ∧
      (Shop.engine.reports (fun _ => .ok "") Shop.cartFile.run [Shop.cartFile.relPath]).value =
        .ok ([Shop.cartFile.relPath].flatMap
          (Shop.engine.found (fun _ => .ok "") Shop.cartFile.run)) := by
  have hrules : Config.standard.enabledRules =
      .ok (Builtin.all.map ConfiguredRule.standard) := rfl
  have hindependent : Independent Builtin.counters Shop.engine.rules := Config.independent hrules
  have hmem : rule standardLimit ∈ Shop.engine.rules :=
    List.mem_map_of_mem (f := Builtin.standard) (by decide : Builtin.componentShape ∈ Builtin.all)
  obtain ⟨htree, hfiles, hruns⟩ :=
    default_exports_counted (undisturbed_of_independent hindependent hmem)
  rw [hfiles _ _ (by decide), htree]
  exact ⟨by decide +kernel, rfl, (hruns hindependent.declares _ _ _).1⟩

end SliceLint.ComponentShape
