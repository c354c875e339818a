import SliceLint.Project.Analysis
import SliceLint.Proofs.Rule.Builtin
import SliceLint.Proofs.Source.Walk
import SliceLint.Proofs.Text.Order

/-!
# Runs over files

**One file** (`Engine.found_cases`). Whether a file has a tree depends on its text alone, and so
does the violation that tells of a file without one. What follows are reports of the findings of
all calls.

**All files** (`analyzeFiles_eq`). A run of rules that declare what they report does not stop. It
gives the violations of its files (`Engine.found`) in the order of the files, and each violation
names its file (`filter_found`).

**Configured rules** (`Config.exists_rules_of_engine`). The rules of a run are built-in rules that
are not switched off.
-/

namespace SliceLint

/-! ## One file -/

/-- What rules see of a file in a run. -/
def FileContext.inRun (run : RunContext) (file text : String) : FileContext :=
  ⟨Path.below run.projectRoot file, file, text, Coordinate.ofPath? file run.sourceRoot, run⟩

/-- The tree of a file, if its text can be read and parsed. -/
def treeOf? [SourceReader] (path : String) (text : Except Fault String) : Option Tree :=
  match text with
  | .error _ => none
  | .ok text => (readSource (Path.suffix path) text).toOption.map (·.2)

theorem treeOf?_eq_some_iff [SourceReader] {path : String} {text : Except Fault String}
    {tree : Tree} : treeOf? path text = some tree ↔
      ∃ content d, text = .ok content ∧ readSource (Path.suffix path) content = .ok (d, tree) := by
  cases text with
  | error f => simp [treeOf?]
  | ok content =>
    cases hread : readSource (Path.suffix path) content with
    | error f => simp [treeOf?, hread, Except.toOption]
    | ok read => simp [treeOf?, hread, Except.toOption, Prod.ext_iff]

theorem walk_of_treeOf? [SourceReader] [SourceReader.HasOneRoot] {path : String}
    {text : Except Fault String} {tree : Tree} (h : treeOf? path text = some tree) :
    tree.walk.filter (fun v => v.node.kind == programKind) = [⟨tree, []⟩] := by
  obtain ⟨content, d, -, hread⟩ := treeOf?_eq_some_iff.1 h
  exact walk_of_readSource hread

/-- The violation tells why a file has no tree. -/
structure Violation.Leads (v : Violation) (file : String) : Prop where
  rule_eq : v.rule = parseRule
  messageId_eq : v.messageId = "parseError"
  severity_eq : v.severity = .error
  file_eq : v.file = file
  same : v.SameButNumber v

theorem leads_parseViolation (file message : String) (line column : Nat) (text : String) :
    (parseViolation file message line column text).Leads file :=
  ⟨rfl, rfl, rfl, rfl, parseViolation file message line column text, 1, 1, rfl, rfl⟩

namespace Engine

/-- The text of a file decides whether it has a tree, whatever the rules and the run. -/
theorem report_cases [SourceReader] (path relPath : String) (text : Except Fault String) :
    (treeOf? path text = none ∧
      ∃ text' message line column shown note, ∀ (e : Engine) (run : RunContext),
        e.report path relPath run text =
          e.reportUnparsed ⟨path, relPath, text', Coordinate.ofPath? relPath run.sourceRoot, run⟩
            (parseViolation relPath message line column shown) note) ∨
    (∃ text' d tree, treeOf? path text = some tree ∧
      readSource (Path.suffix path) text' = .ok (d, tree) ∧
      ∀ (e : Engine) (run : RunContext), e.report path relPath run text =
        e.reportParsed ⟨path, relPath, text', Coordinate.ofPath? relPath run.sourceRoot, run⟩
          d tree) := by
  cases text with
  | error f =>
    refine Or.inl ⟨rfl, "", "Cannot read file: " ++ f.text, 1, 1, "",
      "Cannot read file: " ++ relPath, fun e run => ?_⟩
    unfold report
    simp only
  | ok text =>
    cases hread : readSource (Path.suffix path) text with
    | error f =>
      refine Or.inl ⟨?_, text, f.message, f.line, f.column, text,
        "Cannot parse " ++ relPath ++ ": " ++ f.message, fun e run => ?_⟩
      · rw [treeOf?, hread]
        rfl
      · unfold report
        simp only [hread]
    | ok read =>
      obtain ⟨d, tree⟩ := read
      refine Or.inr ⟨text, d, tree, ?_, hread, fun e run => ?_⟩
      · rw [treeOf?, hread]
        rfl
      · unfold report
        simp only [hread]

theorem report_of_readSource [SourceReader] {e : Engine} {path relPath text : String}
    {run : RunContext} {d : Dialect} {tree : Tree}
    (h : readSource (Path.suffix path) text = .ok (d, tree)) :
    e.report path relPath run (.ok text) =
      e.reportParsed ⟨path, relPath, text, Coordinate.ofPath? relPath run.sourceRoot, run⟩
        d tree := by
  unfold report
  simp only [h]

/-- The violations of a file in a run. -/
def found [SourceReader] (e : Engine) (read : String → Except Fault String) (run : RunContext)
    (file : String) : List Violation :=
  let path := Path.below run.projectRoot file
  match e.report path file run (read path) with
  | .ok r => r.violations
  | .error _ => []

theorem found_of_report [SourceReader] {e : Engine} {read : String → Except Fault String}
    {run : RunContext} {file : String} {report : FileReport}
    (h : e.report (Path.below run.projectRoot file) file run
      (read (Path.below run.projectRoot file)) = .ok report) :
    e.found read run file = report.violations := by
  simp only [found, h]

/-- **One file.** A file has a tree or a violation that tells why it has none, whatever the rules
and the run. Rules that declare what they report are then called, and the violations that follow
report what the calls find. -/
theorem found_cases [SourceReader] (read : String → Except Fault String) (root file : String) :
    ∃ (lead : List Violation) (text : String) (tree? : Option Tree),
      treeOf? (Path.below root file) (read (Path.below root file)) = tree? ∧
      (∀ v ∈ lead, v.Leads file) ∧ lead.length = (if tree?.isSome then 0 else 1) ∧
      ∀ (e : Engine) (run : RunContext), (∀ r ∈ e.rules, r.Declares) → run.projectRoot = root →
        ∃ vs, e.found read run file = lead ++ vs ∧
          List.Forall₂ (e.Reports file (Text.lines text))
            ((traceFile e.rules (.inRun run file text) tree?).flatMap Call.findings) vs := by
  rcases report_cases (Path.below root file) file (read (Path.below root file)) with
    ⟨htree, text, message, line, column, shown, note, hreport⟩ | ⟨text, d, tree, htree, hread, hreport⟩
  · refine ⟨[parseViolation file message line column shown], text, none, htree, ?_, rfl,
      fun e run hrules hroot => ?_⟩
    · intro v hv
      rw [List.mem_singleton.1 hv]
      exact leads_parseViolation file message line column shown
    · obtain ⟨vs, log, hvs, hreports⟩ := exists_reportUnparsed hrules
        ⟨_, file, text, Coordinate.ofPath? file run.sourceRoot, run⟩ _ note
      subst hroot
      exact ⟨vs, found_of_report ((hreport e run).trans hvs), hreports⟩
  · refine ⟨[], text, some tree, htree, fun v hv => absurd hv List.not_mem_nil, rfl,
      fun e run hrules hroot => ?_⟩
    obtain ⟨report, hvs, hreports⟩ := exists_reportParsed hrules
      ⟨_, file, text, Coordinate.ofPath? file run.sourceRoot, run⟩ d tree
    subst hroot
    exact ⟨report.violations, found_of_report ((hreport e run).trans hvs), hreports⟩

/-! ## All files -/

variable {e : Engine} {read : String → Except Fault String} {run : RunContext}

theorem exists_report [SourceReader] (hrules : ∀ r ∈ e.rules, r.Declares) (path relPath : String)
    (run : RunContext) (text : Except Fault String) :
    ∃ report, e.report path relPath run text = .ok report := by
  rcases report_cases path relPath text with
    ⟨-, text', message, line, column, shown, note, hreport⟩ | ⟨text', d, tree, -, -, hreport⟩
  · obtain ⟨vs, log, hvs, -⟩ := exists_reportUnparsed hrules
      ⟨path, relPath, text', Coordinate.ofPath? relPath run.sourceRoot, run⟩ _ note
    exact ⟨_, (hreport e run).trans hvs⟩
  · obtain ⟨report, hvs, -⟩ := exists_reportParsed hrules
      ⟨path, relPath, text', Coordinate.ofPath? relPath run.sourceRoot, run⟩ d tree
    exact ⟨report, (hreport e run).trans hvs⟩

theorem file_of_mem_found [SourceReader] (hrules : ∀ r ∈ e.rules, r.Declares) {file : String}
    {v : Violation} (hv : v ∈ e.found read run file) : v.file = file := by
  obtain ⟨lead, text, tree?, -, hlead, -, hfound⟩ := found_cases read run.projectRoot file
  obtain ⟨vs, hvs, hreports⟩ := hfound e run hrules rfl
  rw [hvs] at hv
  rcases List.mem_append.1 hv with hv | hv
  · exact (hlead v hv).file_eq
  · obtain ⟨x, -, hx⟩ := exists_of_mem_forall₂ hreports hv
    exact hx.file_eq

theorem value_reports [SourceReader] (hrules : ∀ r ∈ e.rules, r.Declares)
    (read : String → Except Fault String) (run : RunContext) (files : List String) :
    (e.reports read run files).value = .ok (files.flatMap (e.found read run)) := by
  induction files with
  | nil => rfl
  | cons file files ih =>
    obtain ⟨report, hreport⟩ := exists_report hrules (Path.below run.projectRoot file) file run
      (read (Path.below run.projectRoot file))
    simp only [reports, hreport, ih, List.flatMap_cons, found_of_report hreport]
    rfl

/-- The violations that name a file of the run are those of that file. -/
theorem filter_found [SourceReader] (hrules : ∀ r ∈ e.rules, r.Declares) {files : List String}
    (hfiles : files.Nodup) {file : String} (hfile : file ∈ files) :
    (files.flatMap (e.found read run)).filter (fun v => v.file == file) =
      e.found read run file := by
  have hown : (e.found read run file).filter (fun v => v.file == file) =
      e.found read run file := by
    rw [List.filter_eq_self]
    intro v hv
    exact beq_iff_eq.2 (file_of_mem_found hrules hv)
  rw [List.filter_flatMap, flatMap_eq_of_only hfile hfiles, hown]
  intro other _ hne
  rw [List.filter_eq_nil_iff]
  intro v hv heq
  exact hne ((file_of_mem_found hrules hv).symm.trans (beq_iff_eq.1 heq))

end Engine

/-- **Runs.** A run of rules that declare what they report gives the violations of its files, in
the order of the files. -/
theorem analyzeFiles_eq [SourceReader] {e : Engine} (hrules : ∀ r ∈ e.rules, r.Declares)
    (read : String → Except Fault String) (view : FileView) (root : String) (c : Config)
    (files : List String) (clock : Clock) :
    ∃ results, (analyzeFiles read view root c e files clock).value = .ok results ∧
      results.violations = (Text.sorted files).flatMap
        (e.found read (c.runContext root files view)) := by
  have hvalue := e.value_reports hrules read (c.runContext root files view) (Text.sorted files)
  unfold analyzeFiles
  simp only [Config.runContext, RunContext.build] at hvalue ⊢
  simp only [hvalue]
  exact ⟨_, rfl, rfl⟩

/-- The totals are those of the violations and of the files. -/
theorem results_of_analyzeFiles [SourceReader] {read : String → Except Fault String}
    {view : FileView} {root : String} {c : Config} {e : Engine} {files : List String}
    {clock : Clock} {results : Results}
    (h : (analyzeFiles read view root c e files clock).value = .ok results) :
    results = .of results.violations files.length clock.milliseconds clock.now := by
  have hlength : (c.runContext root files view).files.length = files.length :=
    (Text.sorted_perm files).length_eq
  unfold analyzeFiles at h
  cases hreported : (e.reports read (c.runContext root files view)
      (c.runContext root files view).files).value with
  | error f =>
    simp only [hreported] at h
    cases h
  | ok violations =>
    simp only [hreported, hlength] at h
    cases h
    rfl

/-- A run over a project that gives results analyses the selected files. -/
theorem exists_of_analyze [SourceReader] {d : Disk} {root : String} {c : Config} {scope : Scope}
    {clock : Clock} {results : Results} (h : (analyze d root c scope clock).value = .ok results) :
    ∃ e files, c.engine = .ok e ∧ (scope.files d root c).value = .ok files ∧
      (analyzeFiles d.readText d.view root c e files clock).value = .ok results := by
  unfold analyze at h
  cases he : c.engine with
  | error f =>
    simp only [he] at h
    cases h
  | ok e =>
    cases hfiles : (scope.files d root c).value with
    | error f =>
      simp only [he, hfiles] at h
      cases h
    | ok files =>
      simp only [he, hfiles] at h
      cases hanalyzed : (analyzeFiles d.readText d.view root c e files clock).value with
      | error f =>
        rw [hanalyzed] at h
        cases h
      | ok results' =>
        rw [hanalyzed] at h
        cases h
        exact ⟨e, files, rfl, rfl, hanalyzed⟩

/-! ## Configured rules -/

/-- No rule is named like the reports on files without a tree. -/
theorem Builtin.id_ne_parseRule (b : Builtin) : b.id ≠ parseRule := by
  cases b <;> decide

namespace Config

variable {c : Config} {e : Engine}

/-- The engine of a configuration has built-in rules with their options, and the severities that
replace theirs. -/
theorem exists_rules_of_engine (h : c.engine = .ok e) :
    ∃ rules, c.enabledRules = .ok rules ∧
      e = ⟨rules.map ConfiguredRule.rule, c.overrides⟩ := by
  unfold engine at h
  cases hrules : c.enabledRules with
  | error f =>
    rw [hrules] at h
    cases h
  | ok rules =>
    rw [hrules] at h
    exact ⟨rules, rfl, (Except.ok.inj h).symm⟩

theorem rules_of_engine (h : c.engine = .ok e) :
    ∃ rules, c.enabledRules = .ok rules ∧ e.rules = rules.map ConfiguredRule.rule := by
  obtain ⟨rules, hrules, rfl⟩ := exists_rules_of_engine h
  exact ⟨rules, hrules, rfl⟩

theorem overrides_of_engine (h : c.engine = .ok e) : e.overrides = c.overrides := by
  obtain ⟨rules, -, rfl⟩ := exists_rules_of_engine h
  rfl

/-- A rule of a configuration is a built-in rule that is not switched off. -/
theorem exists_builtin_of_mem_engine (h : c.engine = .ok e) {r : Rule} (hr : r ∈ e.rules) :
    ∃ (configured : ConfiguredRule) (b : Builtin), configured.rule = r ∧ r.info.id = b.id ∧
      (c.settings b).level? ≠ some .off := by
  obtain ⟨rules, hrules, heq⟩ := rules_of_engine h
  rw [heq] at hr
  obtain ⟨configured, hmem, rfl⟩ := List.mem_map.1 hr
  have hbuiltin := List.mem_map_of_mem (f := ConfiguredRule.builtin) hmem
  rw [builtins_of_enabledRules hrules] at hbuiltin
  exact ⟨configured, configured.builtin, rfl, configured.rule_id,
    bne_iff_ne.1 (List.mem_filter.1 hbuiltin).2⟩

theorem independent_engine (h : c.engine = .ok e) :
    Independent Builtin.counters e.rules := by
  obtain ⟨rules, hrules, heq⟩ := rules_of_engine h
  rw [heq]
  exact independent hrules

end Config

end SliceLint
