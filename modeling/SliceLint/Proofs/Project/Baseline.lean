import SliceLint.Proofs.Engine.Isolation
import SliceLint.Proofs.Project.Run
import SliceLint.Proofs.Rule.Ownership
import SliceLint.Proofs.Source.Walk

/-!
# Missing files of slices are reported once

The owner of a slice reports what is missing, and it reports it once: at the root of its tree if
it has one, and otherwise in the pass that needs no tree. No other file of the slice reports it,
and since rules do not disturb each other, no other rule takes anything away.
-/

namespace SliceLint

namespace SliceBaseline

variable {files : List String} {ctx : FileContext} {fs : List Finding}

/-! ## The calls of the rule -/

/-- Alone, the rule is called at the root and at the end of a file. -/
theorem schedule_rule {tree : Tree}
    (hroot : tree.walk.filter (fun v => v.node.kind == programKind) = [⟨tree, []⟩]) :
    schedule [rule files] tree =
      [(rule files, .node ⟨tree, []⟩), (rule files, .exit)] := by
  have hvisits : ∀ visits : List Visit,
      (visits.flatMap fun v => ((Subscriptions.ofRules [rule files]).subscribers
        v.node.kind).map fun r => (r, Occasion.node v)) =
        (visits.filter fun v => v.node.kind == programKind).map fun v =>
          (rule files, .node v) := by
    intro visits
    induction visits with
    | nil => rfl
    | cons v visits ih =>
      rw [List.flatMap_cons, ih, Subscriptions.subscribers_ofRules, List.filter_cons,
        List.filter_cons]
      by_cases hkind : v.node.kind = programKind
      · simp [rule, hkind, programKind]
      · have hne : ¬v.node.kind = "program" := hkind
        simp [rule, hkind, hne]
  simp only [schedule, hvisits, hroot]
  rfl

theorem findings_traceFile {tree? : Option Tree}
    (hroot : ∀ tree, tree? = some tree →
      tree.walk.filter (fun v => v.node.kind == programKind) = [⟨tree, []⟩])
    (hcheck : check files ctx = .ok fs) :
    (traceFile [rule files] ctx tree?).flatMap Call.findings =
      fs.map fun f => (rule files, f) := by
  cases tree? with
  | some tree =>
    have hnode : ∀ v s, (rule files).respond (.node v) ctx s = (.ok fs, s) := by
      intro v s
      show (check files ctx, s) = _
      rw [hcheck]
    have htrace : traceOf [rule files] ctx tree =
        [⟨rule files, .node ⟨tree, []⟩, .ok fs⟩, ⟨rule files, .exit, .ok []⟩] := by
      unfold traceOf
      rw [schedule_rule (hroot tree rfl)]
      simp only [List.foldl_cons, List.foldl_nil, Progress.next, Progress.call, Progress.start,
        hnode]
      rfl
    show (traceOf [rule files] ctx tree).flatMap Call.findings = _
    rw [htrace]
    simp [Call.findings]
  | none =>
    have hcall : ∀ s, (rule files).respond .unparsed ctx s = (.ok fs, s) := by
      intro s
      show (check files ctx, s) = _
      rw [hcheck]
    have htrace : traceUnparsed [rule files] ctx = [⟨rule files, .unparsed, .ok fs⟩] := by
      rw [traceUnparsed_eq]
      show (Progress.call ctx .start (rule files) .unparsed).calls.reverse = _
      simp only [Progress.call, Progress.start, hcall]
      rfl
    show (traceUnparsed [rule files] ctx).flatMap Call.findings = _
    rw [htrace]
    simp [Call.findings]

end SliceBaseline

/-! ## The reports of a file -/

section File

variable {own : String → Set String} {e : Engine} {wanted : List String} {run : RunContext}
  {file : String} {fs : List Finding}

theorem reports_baseline [SourceReader] [SourceReader.HasOneRoot] (h : Independent own e.rules)
    (hrule : SliceBaseline.rule wanted ∈ e.rules) (read : String → Except Fault String)
    (hcheck : ∀ text, SliceBaseline.check wanted (.inRun run file text) = .ok fs) :
    ∃ lines, List.Forall₂ (e.Reports file lines) (fs.map fun f => (SliceBaseline.rule wanted, f))
      ((e.found read run file).filter fun v => v.rule == SliceBaseline.info.id) := by
  obtain ⟨lead, text, tree?, htree, hlead, -, hfound⟩ :=
    Engine.found_cases read run.projectRoot file
  have hroot : ∀ tree, tree? = some tree →
      tree.walk.filter (fun v => v.node.kind == programKind) = [⟨tree, []⟩] :=
    fun tree hsome => walk_of_treeOf? (htree.trans hsome)
  obtain ⟨vs, hvs, hreports⟩ := hfound e run h.declares rfl
  have hnone : lead.filter (fun v => v.rule == SliceBaseline.info.id) = [] := by
    rw [List.filter_eq_nil_iff]
    intro v hv
    rw [(hlead v hv).rule_eq]
    decide
  have hpicked := Engine.reports_picked (· == (SliceBaseline.rule wanted).info.id) hreports
  rw [traceFile_filter_id h hrule, SliceBaseline.findings_traceFile hroot (hcheck _)] at hpicked
  rw [hvs, List.filter_append, hnone, List.nil_append]
  exact ⟨_, hpicked⟩

/-- On a disk that answers every question the rule reports nothing but missing files. -/
theorem isBaseline_of_found [SourceReader] [SourceReader.HasOneRoot] (h : Independent own e.rules)
    (hrule : SliceBaseline.rule wanted ∈ e.rules) (read : String → Except Fault String)
    {names : List String}
    (hcheck : ∀ text, SliceBaseline.check wanted (.inRun run file text) =
      .ok (names.map SliceBaseline.missing)) :
    ∀ v ∈ e.found read run file, v.isBaseline = (v.rule == SliceBaseline.info.id) := by
  intro v hv
  unfold Violation.isBaseline
  cases hv' : v.rule == SliceBaseline.info.id with
  | false => rfl
  | true =>
    obtain ⟨lines, hreports⟩ := reports_baseline h hrule read hcheck
    rw [List.map_map, List.forall₂_map_left_iff] at hreports
    obtain ⟨name, -, hname⟩ := exists_of_mem_forall₂ hreports (List.mem_filter.2 ⟨hv, hv'⟩)
    rw [Bool.true_and]
    exact beq_iff_eq.2 hname.messageId_eq

/-- The missing files that are reported of a file, each with the data of its message. -/
theorem baseline_of_found [SourceReader] [SourceReader.HasOneRoot] (h : Independent own e.rules)
    (hrule : SliceBaseline.rule wanted ∈ e.rules) (read : String → Except Fault String)
    {names : List String}
    (hcheck : ∀ text, SliceBaseline.check wanted (.inRun run file text) =
      .ok (names.map SliceBaseline.missing)) :
    ((e.found read run file).filter Violation.isBaseline).map (fun v => (v.file, v.data)) =
      names.map fun name => (file, [("filename", .text name)]) := by
  obtain ⟨lines, hreports⟩ := reports_baseline h hrule read hcheck
  rw [List.map_map, List.forall₂_map_left_iff] at hreports
  rw [List.filter_congr (isBaseline_of_found h hrule read hcheck)]
  exact map_eq_of_forall₂ hreports fun name v hv => Prod.ext hv.file_eq hv.data_eq

theorem filter_baseline_of_not_owner [SourceReader] [SourceReader.HasOneRoot]
    (h : Independent own e.rules) (hrule : SliceBaseline.rule wanted ∈ e.rules)
    (read : String → Except Fault String) (run : RunContext)
    (hnot : ∀ slice, Coordinate.ofPath? file run.sourceRoot = some ⟨.features, some slice⟩ →
      run.ownsSlice file ⟨.features, some slice⟩ = false) :
    (e.found read run file).filter Violation.isBaseline = [] := by
  have hsilent : ∀ text, SliceBaseline.check wanted (.inRun run file text) =
      .ok (([] : List String).map SliceBaseline.missing) :=
    fun text => SliceBaseline.check_of_not_owner (.inRun run file text) hnot
  exact List.map_eq_nil_iff.1 (baseline_of_found h hrule read hsilent)

/-- The owner of a feature slice has the missing files of the slice reported. -/
theorem filter_baseline_of_owner [SourceReader] [SourceReader.HasOneRoot]
    (h : Independent own e.rules) (hrule : SliceBaseline.rule wanted ∈ e.rules)
    (read : String → Except Fault String) {there : String → Bool}
    (hview : ∀ p, run.view.isFile p = .ok (there p)) {slice : String}
    (hcoordinate : Coordinate.ofPath? file run.sourceRoot = some ⟨.features, some slice⟩)
    (howns : run.ownsSlice file ⟨.features, some slice⟩ = true) :
    ((e.found read run file).filter Violation.isBaseline).map (fun v => (v.file, v.data)) =
      ((SliceBaseline.expected wanted slice).filter fun name =>
        !there (Path.below (SliceBaseline.sliceDirectory run slice) name)).map fun name =>
          (file, [("filename", .text name)]) :=
  baseline_of_found h hrule read fun text =>
    SliceBaseline.check_of_answers (.inRun run file text) hview hcoordinate howns

end File

/-! ## The reports of a run -/

/-- Of the files of a feature slice only the least one has missing files reported. -/
theorem filter_baseline_of_ne_least [SourceReader] [SourceReader.HasOneRoot]
    {own : String → Set String} {e : Engine} {wanted : List String} (h : Independent own e.rules)
    (hrule : SliceBaseline.rule wanted ∈ e.rules)
    (read : String → Except Fault String) {c : Config} {root : String} {view : FileView}
    {files : List String} {slice least file : String} (hleast : least ∈ files)
    (hcleast : Coordinate.ofPath? least c.sourceRoot = some ⟨.features, some slice⟩)
    (hle : ∀ other ∈ files,
      Coordinate.ofPath? other c.sourceRoot = some ⟨.features, some slice⟩ → least ≤ other)
    (hfile : file ∈ files)
    (hcfile : Coordinate.ofPath? file c.sourceRoot = some ⟨.features, some slice⟩)
    (hne : file ≠ least) :
    (e.found read (c.runContext root files view) file).filter Violation.isBaseline = [] := by
  refine filter_baseline_of_not_owner h hrule read _ fun slice' hslice' => ?_
  obtain rfl : slice = slice' := by simpa using hcfile.symm.trans hslice'
  by_contra howns
  have hfirst := (ownsSlice_build_iff hfile hcfile rfl).1 (eq_true_of_ne_false howns)
  exact hne (String.le_antisymm (hfirst least hleast hcleast) (hle file hfile hcfile))

/-- **Once per slice.** In a run over files in any order, on a disk that answers every question,
missing files are reported of feature slices alone, and of each slice that has a file in the run
they are reported once: at the least file of the slice, in the order in which they are expected and
as often as they are expected. What the files hold does not matter. -/
theorem baseline_reported_once [SourceReader] [SourceReader.HasOneRoot] {c : Config} {e : Engine}
    {wanted : List String} (he : c.engine = .ok e) (hrule : SliceBaseline.rule wanted ∈ e.rules)
    {view : FileView} {there : String → Bool} (hview : ∀ p, view.isFile p = .ok (there p))
    {files : List String} (hfiles : files.Nodup) (read : String → Except Fault String)
    (root : String) (clock : Clock) :
    ∃ results, (analyzeFiles read view root c e files clock).value = .ok results ∧
      (∀ v ∈ results.violations, v.isBaseline = true →
        ∃ slice, Coordinate.ofPath? v.file c.sourceRoot = some ⟨.features, some slice⟩) ∧
      ∀ slice, ∀ file ∈ files,
        Coordinate.ofPath? file c.sourceRoot = some ⟨.features, some slice⟩ →
        ∃ owner ∈ files,
          Coordinate.ofPath? owner c.sourceRoot = some ⟨.features, some slice⟩ ∧
          (∀ other ∈ files,
            Coordinate.ofPath? other c.sourceRoot = some ⟨.features, some slice⟩ →
              owner ≤ other) ∧
          (results.violations.filter fun v => v.isBaseline &&
              Coordinate.ofPath? v.file c.sourceRoot == some ⟨.features, some slice⟩).map
                (fun v => (v.file, v.data)) =
            ((SliceBaseline.expected wanted slice).filter fun name =>
              !there (Path.below (Path.below (Path.below (Path.below root c.sourceRoot) "features")
                slice) name)).map fun name => (owner, [("filename", .text name)]) := by
  have h := Config.independent_engine he
  obtain ⟨results, hresults, hviolations⟩ :=
    analyzeFiles_eq h.declares read view root c files clock
  refine ⟨results, hresults, ?_, ?_⟩
  · intro v hv hbaseline
    rw [hviolations] at hv
    obtain ⟨file, -, hv⟩ := List.mem_flatMap.1 hv
    rw [Engine.file_of_mem_found h.declares hv]
    by_contra hnone
    have hempty : (e.found read (c.runContext root files view) file).filter
        Violation.isBaseline = [] :=
      filter_baseline_of_not_owner h hrule read _ fun slice hslice => absurd ⟨slice, hslice⟩ hnone
    exact List.filter_eq_nil_iff.1 hempty v hv hbaseline
  · intro slice file hfile hcoordinate
    obtain ⟨owner, howner, hcowner, hleast⟩ := exists_least hfile
      (p := fun file => Coordinate.ofPath? file c.sourceRoot == some ⟨.features, some slice⟩)
      (beq_iff_eq.2 hcoordinate)
    rw [beq_iff_eq] at hcowner
    have hle := fun other hother hcother => hleast other hother (beq_iff_eq.2 hcother)
    refine ⟨owner, howner, hcowner, hle, ?_⟩
    have hothers : ∀ other ∈ Text.sorted files, other ≠ owner →
        (e.found read (c.runContext root files view) other).filter (fun v => v.isBaseline &&
          Coordinate.ofPath? v.file c.sourceRoot == some ⟨.features, some slice⟩) = [] := by
      intro other hother hne
      rw [List.filter_eq_nil_iff]
      intro v hv hv'
      obtain ⟨hbaseline, hcother⟩ := Bool.and_eq_true_iff.1 hv'
      rw [Engine.file_of_mem_found h.declares hv, beq_iff_eq] at hcother
      exact List.filter_eq_nil_iff.1 (filter_baseline_of_ne_least h hrule read howner hcowner hle
        (Text.mem_sorted.1 hother) hcother hne) v hv hbaseline
    have howned : (e.found read (c.runContext root files view) owner).filter
        (fun v => v.isBaseline &&
          Coordinate.ofPath? v.file c.sourceRoot == some ⟨.features, some slice⟩) =
        (e.found read (c.runContext root files view) owner).filter Violation.isBaseline := by
      refine List.filter_congr fun v hv => ?_
      rw [Engine.file_of_mem_found h.declares hv, beq_iff_eq.2 hcowner, Bool.and_true]
    rw [hviolations, List.filter_flatMap, flatMap_eq_of_only (Text.mem_sorted.2 howner)
      ((Text.sorted_perm files).nodup_iff.2 hfiles) hothers, howned]
    exact filter_baseline_of_owner h hrule read hview hcowner
      ((ownsSlice_build_iff howner hcowner rfl).2 hle)

/-- Of two files that cannot be read the first one tells what the slice lacks. -/
theorem baseline_reported_once_cart :
    ∃ results, (analyzeFiles (fun _ => .error ⟨"OSError", "no answer"⟩)
        Shop.apiAlone "/shop" .standard
        Shop.engine ["app/features/cart/hooks.ts", "app/features/cart/api.ts"]
        ⟨default, default⟩).value = .ok results ∧
      (results.violations.filter fun v => v.isBaseline &&
          Coordinate.ofPath? v.file "app" == some ⟨.features, some "cart"⟩).map
            (fun v => (v.file, v.data)) =
        ["api.spec.ts", "hooks.ts", "hooks.spec.ts", "README.md", "ui/cart.page.tsx",
          "ui/cart.page.spec.tsx"].map fun name =>
            ("app/features/cart/api.ts", [("filename", .text name)]) := by
  have hbuiltin : Builtin.sliceBaseline ∈ Builtin.all := by decide
  have hrule : SliceBaseline.rule SliceBaseline.standardFiles ∈ Shop.engine.rules :=
    List.mem_map.2 ⟨_, hbuiltin, rfl⟩
  have hview : ∀ path, Shop.apiAlone.isFile path =
      .ok (path == "/shop/app/features/cart/api.ts") := fun _ => rfl
  have hfiles : ["app/features/cart/hooks.ts", "app/features/cart/api.ts"].Nodup := by
    decide +kernel
  obtain ⟨results, hresults, -, honce⟩ := baseline_reported_once (c := .standard) rfl hrule hview
    hfiles (fun _ => .error ⟨"OSError", "no answer"⟩) "/shop" ⟨default, default⟩
  have hcart : Coordinate.ofPath? "app/features/cart/api.ts" "app" =
      some ⟨.features, some "cart"⟩ := by decide +kernel
  obtain ⟨owner, howner, -, hle, hfound⟩ :=
    honce "cart" "app/features/cart/api.ts" (by simp) hcart
  have hapi : owner = "app/features/cart/api.ts" := by
    have hfirst := hle "app/features/cart/api.ts" (by simp) hcart
    simp only [List.mem_cons, List.not_mem_nil, or_false] at howner
    rcases howner with rfl | rfl
    · exact absurd hfirst (by decide +kernel)
    · rfl
  have hmissing : ((SliceBaseline.expected SliceBaseline.standardFiles "cart").filter fun name =>
      !(Path.below (Path.below (Path.below (Path.below "/shop" "app") "features") "cart") name ==
        "/shop/app/features/cart/api.ts")) =
      ["api.spec.ts", "hooks.ts", "hooks.spec.ts", "README.md", "ui/cart.page.tsx",
        "ui/cart.page.spec.tsx"] := by decide +kernel
  refine ⟨results, hresults, hfound.trans ?_⟩
  rw [hapi, ← hmissing]
  rfl

end SliceLint
