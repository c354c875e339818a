import SliceLint.Proofs.Project.Baseline

/-!
# Runs over fewer files

A run over some of the files hides nothing of them. Of all that rules see of a file only the index
of owners depends on the other files of a run, and one rule alone asks for it. A file may come to
own its slice when files are left out, and then it reports what the slice lacks; whatever else it
reports stays as it is.
-/

namespace SliceLint

/-! ## What rules see of other files -/

/-- The same file in a run over other files. -/
def FileContext.regrouped (ctx : FileContext) (files : List String)
    (owners : List (Coordinate × String)) : FileContext :=
  { ctx with run := { ctx.run with files := files, owners := owners } }

theorem ServiceImport.check_regrouped (statement : Tree) (ctx : FileContext) (files : List String)
    (owners : List (Coordinate × String)) :
    check statement (ctx.regrouped files owners) = check statement ctx := by
  have hhooks : ∀ place source bindings,
      checkHooks place source bindings (ctx.regrouped files owners) =
        checkHooks place source bindings ctx := fun _ _ _ => rfl
  unfold check
  rw [show (ctx.regrouped files owners).relPath = ctx.relPath from rfl]
  cases checked? statement ctx.relPath with
  | none => rfl
  | some source => simp only [hhooks]

/-- Rules other than the one on slices do not see which files are in the run. -/
theorem ConfiguredRule.respond_regrouped (r : ConfiguredRule)
    (h : ∀ wanted, r ≠ .sliceBaseline wanted) (o : Occasion) (ctx : FileContext)
    (files : List String) (owners : List (Coordinate × String)) (s : Counters) :
    r.rule.respond o (ctx.regrouped files owners) s = r.rule.respond o ctx s := by
  cases r with
  | sliceBaseline wanted => exact absurd rfl (h wanted)
  | serviceImport =>
    cases o with
    | node v =>
      exact congrArg (fun fs => (Except.ok fs, s))
        (ServiceImport.check_regrouped v.node ctx files owners)
    | exit | unparsed => rfl
  | literalStyle | layerBoundary | componentShape | functionTests | apiContract =>
    cases o <;> rfl

variable {c : Config} {root : String} {view : FileView} {files fewer : List String}
  {file : String}

/-- A file comes to own its feature slice when the run is over fewer files. -/
def ComesToOwn (c : Config) (root : String) (view : FileView) (files fewer : List String)
    (file : String) : Prop :=
  ∃ slice, Coordinate.ofPath? file c.sourceRoot = some ⟨.features, some slice⟩ ∧
    (c.runContext root fewer view).ownsSlice file ⟨.features, some slice⟩ = true ∧
    (c.runContext root files view).ownsSlice file ⟨.features, some slice⟩ = false

/-- The rule on slices finds the same of a file that does not come to own its slice. -/
theorem SliceBaseline.check_of_not_comesToOwn (hsub : fewer ⊆ files) (hfile : file ∈ fewer)
    (hsame : ¬ComesToOwn c root view files fewer file) (wanted : List String) (text : String) :
    check wanted (.inRun (c.runContext root fewer view) file text) =
      check wanted (.inRun (c.runContext root files view) file text) := by
  by_cases howner : ∃ slice, Coordinate.ofPath? file c.sourceRoot = some ⟨.features, some slice⟩ ∧
      (c.runContext root files view).ownsSlice file ⟨.features, some slice⟩ = true
  · obtain ⟨slice, hc, howns⟩ := howner
    have hfewer : (c.runContext root fewer view).ownsSlice file ⟨.features, some slice⟩ = true :=
      ownsSlice_mono hsub hfile hc rfl howns
    rw [check_of_owner (.inRun (c.runContext root fewer view) file text) hc hfewer,
      check_of_owner (.inRun (c.runContext root files view) file text) hc howns]
    rfl
  · have hnot : ∀ slice, Coordinate.ofPath? file c.sourceRoot = some ⟨.features, some slice⟩ →
        (c.runContext root files view).ownsSlice file ⟨.features, some slice⟩ = false := by
      intro slice hc
      by_contra howns
      exact howner ⟨slice, hc, eq_true_of_ne_false howns⟩
    have hfewer : ∀ slice, Coordinate.ofPath? file c.sourceRoot = some ⟨.features, some slice⟩ →
        (c.runContext root fewer view).ownsSlice file ⟨.features, some slice⟩ = false := by
      intro slice hc
      by_contra howns
      exact hsame ⟨slice, hc, eq_true_of_ne_false howns, hnot slice hc⟩
    rw [check_of_not_owner (.inRun (c.runContext root fewer view) file text) hfewer,
      check_of_not_owner (.inRun (c.runContext root files view) file text) hnot]

/-! ## One file in two runs -/

section TwoRuns

variable {own : String → Set String} {e : Engine} {rules : List ConfiguredRule}

/-- Rules with picked names that answer alike in both runs are reported alike. -/
theorem forall₂_found_of_respond [SourceReader] (h : Independent own e.rules)
    (pick : String → Bool) (read : String → Except Fault String)
    (hrespond : ∀ text, ∀ r ∈ e.rules, pick r.info.id = true → ∀ o s,
      r.respond o (.inRun (c.runContext root fewer view) file text) s =
        r.respond o (.inRun (c.runContext root files view) file text) s) :
    List.Forall₂ Violation.SameButNumber
      ((e.found read (c.runContext root files view) file).filter fun v => pick v.rule)
      ((e.found read (c.runContext root fewer view) file).filter fun v => pick v.rule) := by
  obtain ⟨lead, text, tree?, -, hlead, -, hfound⟩ := Engine.found_cases read root file
  obtain ⟨vs, hall, hvs⟩ := hfound e (c.runContext root files view) h.declares rfl
  obtain ⟨ws, hfew, hws⟩ := hfound e (c.runContext root fewer view) h.declares rfl
  have hpicked : ∀ r ∈ e.rules.filter (fun r => pick r.info.id), ∀ o s,
      r.respond o (.inRun (c.runContext root fewer view) file text) s =
        r.respond o (.inRun (c.runContext root files view) file text) s := by
    intro r hr
    obtain ⟨hmem, hpick⟩ := List.mem_filter.1 hr
    exact hrespond text r hmem hpick
  have hvs' := Engine.reports_picked pick hvs
  have hws' := Engine.reports_picked pick hws
  rw [traceFile_filter h pick] at hvs' hws'
  rw [traceFile_congr hpicked] at hws'
  rw [hall, hfew, List.filter_append, List.filter_append]
  exact List.rel_append
    (List.forall₂_same.2 fun v hv => (hlead v (List.mem_filter.1 hv).1).same)
    (Engine.forall₂_sameButNumber hvs' hws')

theorem found_of_not_comesToOwn [SourceReader] (h : Independent own e.rules)
    (hrules : e.rules = rules.map ConfiguredRule.rule) (hsub : fewer ⊆ files) (hfile : file ∈ fewer)
    (hsame : ∀ wanted, SliceBaseline.rule wanted ∈ e.rules →
      ¬ComesToOwn c root view files fewer file)
    (read : String → Except Fault String) :
    List.Forall₂ Violation.SameButNumber (e.found read (c.runContext root files view) file)
      (e.found read (c.runContext root fewer view) file) := by
  suffices halike : List.Forall₂ Violation.SameButNumber
      ((e.found read (c.runContext root files view) file).filter fun _ => true)
      ((e.found read (c.runContext root fewer view) file).filter fun _ => true) by
    rwa [List.filter_true, List.filter_true] at halike
  refine forall₂_found_of_respond h (fun _ => true) read ?_
  intro text r hr _ o s
  have hconfigured := hr
  rw [hrules] at hconfigured
  obtain ⟨r, -, rfl⟩ := List.mem_map.1 hconfigured
  by_cases hbaseline : ∃ wanted, r = .sliceBaseline wanted
  · obtain ⟨wanted, rfl⟩ := hbaseline
    have hcheck := SliceBaseline.check_of_not_comesToOwn hsub hfile (hsame wanted hr) wanted text
    cases o with
    | exit => rfl
    | node _ | unparsed => exact congrArg (fun answer => (answer, s)) hcheck
  · exact r.respond_regrouped (fun wanted heq => hbaseline ⟨wanted, heq⟩) o
      (.inRun (c.runContext root files view) file text) _ _ s

theorem forall₂_found_filter [SourceReader] (h : Independent own e.rules)
    (hrules : e.rules = rules.map ConfiguredRule.rule) (read : String → Except Fault String) :
    List.Forall₂ Violation.SameButNumber
      ((e.found read (c.runContext root files view) file).filter fun v =>
        v.rule != SliceBaseline.info.id)
      ((e.found read (c.runContext root fewer view) file).filter fun v =>
        v.rule != SliceBaseline.info.id) := by
  refine forall₂_found_of_respond h (· != SliceBaseline.info.id) read ?_
  intro text r hr hid o s
  rw [hrules] at hr
  obtain ⟨r, -, rfl⟩ := List.mem_map.1 hr
  refine r.respond_regrouped ?_ o (.inRun (c.runContext root files view) file text) _ _ s
  rintro wanted rfl
  exact bne_iff_ne.1 hid rfl

/-- Of a file that comes to own its slice the run over fewer files reports what the slice lacks,
and otherwise the same. -/
theorem found_of_comesToOwn [SourceReader] [SourceReader.HasOneRoot] (h : Independent own e.rules)
    (hrules : e.rules = rules.map ConfiguredRule.rule) {wanted : List String}
    (hrule : SliceBaseline.rule wanted ∈ e.rules) {there : String → Bool}
    (hview : ∀ p, view.isFile p = .ok (there p)) (hcomes : ComesToOwn c root view files fewer file)
    (read : String → Except Fault String) :
    (∀ v ∈ e.found read (c.runContext root fewer view) file,
      (v.rule != SliceBaseline.info.id) = false → v.isBaseline = true) ∧
    List.Forall₂ Violation.SameButNumber (e.found read (c.runContext root files view) file)
      ((e.found read (c.runContext root fewer view) file).filter fun v =>
        v.rule != SliceBaseline.info.id) := by
  obtain ⟨slice, hc, hfewer, hfiles⟩ := hcomes
  have hlacks : ∀ text, SliceBaseline.check wanted
      (.inRun (c.runContext root fewer view) file text) =
        .ok (((SliceBaseline.expected wanted slice).filter fun name => !there (Path.below
          (SliceBaseline.sliceDirectory (c.runContext root fewer view) slice) name)).map
            SliceBaseline.missing) :=
    fun text => SliceBaseline.check_of_answers
      (.inRun (c.runContext root fewer view) file text) hview hc hfewer
  have hnot : ∀ slice, Coordinate.ofPath? file c.sourceRoot = some ⟨.features, some slice⟩ →
      (c.runContext root files view).ownsSlice file ⟨.features, some slice⟩ = false := by
    intro slice' hslice'
    obtain rfl : slice = slice' := by simpa using hc.symm.trans hslice'
    exact hfiles
  have hsilent : ∀ text, SliceBaseline.check wanted
      (.inRun (c.runContext root files view) file text) =
        .ok (([] : List String).map SliceBaseline.missing) :=
    fun text => SliceBaseline.check_of_not_owner
      (.inRun (c.runContext root files view) file text) hnot
  constructor
  · intro v hv hv'
    rw [isBaseline_of_found h hrule read hlacks v hv]
    rwa [bne_eq_false_iff_eq, ← beq_iff_eq] at hv'
  · have hall : (e.found read (c.runContext root files view) file).filter
        (fun v => v.rule != SliceBaseline.info.id) =
        e.found read (c.runContext root files view) file := by
      rw [List.filter_eq_self]
      intro v hv
      have hnone := List.filter_eq_nil_iff.1
        (filter_baseline_of_not_owner h hrule read (c.runContext root files view) hnot) v hv
      rw [isBaseline_of_found h hrule read hsilent v hv] at hnone
      rw [bne, eq_false_of_ne_true hnone, Bool.not_false]
    rw [← hall]
    exact forall₂_found_filter h hrules read

end TwoRuns

/-! ## Two runs -/

/-- **Restriction.** On a disk that answers every question, a run over some of the files reports of
each of them, up to numbers and in order, what the run over all of them reports. What it reports
beyond that are missing files of slices. -/
theorem restriction_hides_nothing [SourceReader] [SourceReader.HasOneRoot] {e : Engine}
    (he : c.engine = .ok e) {there : String → Bool} (hview : ∀ p, view.isFile p = .ok (there p))
    (hfiles : files.Nodup) (hfewer : fewer.Nodup) (hsub : fewer ⊆ files)
    (read : String → Except Fault String) (root : String) (clock clock' : Clock) :
    ∃ all few, (analyzeFiles read view root c e files clock).value = .ok all ∧
      (analyzeFiles read view root c e fewer clock').value = .ok few ∧
      ∀ file ∈ fewer, ∃ kept : Violation → Bool,
        (∀ v ∈ few.violations, v.file = file → kept v = false → v.isBaseline = true) ∧
        List.Forall₂ Violation.SameButNumber (all.violations.filter fun v => v.file == file)
          ((few.violations.filter fun v => v.file == file).filter kept) := by
  obtain ⟨rules, -, hrules⟩ := Config.rules_of_engine he
  have h := Config.independent_engine he
  obtain ⟨all, hall, hallFound⟩ := analyzeFiles_eq h.declares read view root c files clock
  obtain ⟨few, hfew, hfewFound⟩ := analyzeFiles_eq h.declares read view root c fewer clock'
  refine ⟨all, few, hall, hfew, fun file hfile => ?_⟩
  have hallFile : all.violations.filter (fun v => v.file == file) =
      e.found read (c.runContext root files view) file := by
    rw [hallFound]
    exact Engine.filter_found h.declares ((Text.sorted_perm files).nodup_iff.2 hfiles)
      (Text.mem_sorted.2 (hsub hfile))
  have hfewFile : few.violations.filter (fun v => v.file == file) =
      e.found read (c.runContext root fewer view) file := by
    rw [hfewFound]
    exact Engine.filter_found h.declares ((Text.sorted_perm fewer).nodup_iff.2 hfewer)
      (Text.mem_sorted.2 hfile)
  have hmem : ∀ v ∈ few.violations, v.file = file →
      v ∈ e.found read (c.runContext root fewer view) file := by
    intro v hv hvfile
    rw [← hfewFile]
    exact List.mem_filter.2 ⟨hv, beq_iff_eq.2 hvfile⟩
  rw [hallFile, hfewFile]
  by_cases hcomes : ∃ wanted, SliceBaseline.rule wanted ∈ e.rules ∧
      ComesToOwn c root view files fewer file
  · obtain ⟨wanted, hrule, hcomes⟩ := hcomes
    obtain ⟨hextra, hsame⟩ := found_of_comesToOwn h hrules hrule hview hcomes read
    exact ⟨_, fun v hv hvfile => hextra v (hmem v hv hvfile), hsame⟩
  · refine ⟨fun _ => true, ?_, ?_⟩
    · intro v _ _ hkept
      cases hkept
    · rw [List.filter_true]
      exact found_of_not_comesToOwn h hrules hsub hfile
        (fun wanted hrule hown => hcomes ⟨wanted, hrule, hown⟩) read

/-- Left alone, the second file of a slice comes to own it: it keeps its forbidden import, behind the
files that the slice lacks. -/
theorem restriction_hides_nothing_cart :
    (Config.standard.runContext "/shop" ["app/features/cart/hooks.ts"] Shop.apiAlone).ownsSlice
        "app/features/cart/hooks.ts" ⟨.features, some "cart"⟩ = true ∧
    ∃ all few,
      (analyzeFiles Shop.pageImport Shop.apiAlone "/shop" .standard
        Shop.engine ["app/features/cart/hooks.ts", "app/features/cart/api.ts"]
        ⟨default, default⟩).value = .ok all ∧
      (analyzeFiles Shop.pageImport Shop.apiAlone "/shop" .standard
        Shop.engine ["app/features/cart/hooks.ts"] ⟨default, default⟩).value = .ok few ∧
      (all.violations.filter fun v => v.file == "app/features/cart/hooks.ts").map
        Violation.messageId = ["invalidLayerImport"] ∧
      few.violations.map Violation.messageId =
        List.replicate 6 "missingBaseline" ++ ["invalidLayerImport"] ∧
      ∃ kept : Violation → Bool,
        (∀ v ∈ few.violations, v.file = "app/features/cart/hooks.ts" → kept v = false →
          v.isBaseline = true) ∧
        List.Forall₂ Violation.SameButNumber
          (all.violations.filter fun v => v.file == "app/features/cart/hooks.ts")
          ((few.violations.filter fun v => v.file == "app/features/cart/hooks.ts").filter
            kept) := by
  have hslice : Coordinate.ofPath? "app/features/cart/hooks.ts" "app" =
      some ⟨.features, some "cart"⟩ := by decide +kernel
  refine ⟨(ownsSlice_build_iff (by simp) hslice rfl).2 (by simp), ?_⟩
  have hview : ∀ path, Shop.apiAlone.isFile path =
      .ok (path == "/shop/app/features/cart/api.ts") := fun _ => rfl
  have hfiles : ["app/features/cart/hooks.ts", "app/features/cart/api.ts"].Nodup := by
    decide +kernel
  have hfewer : ["app/features/cart/hooks.ts"].Nodup := List.nodup_singleton _
  have he : Config.standard.engine = .ok Shop.engine := rfl
  obtain ⟨all, few, hall, hfew, hkept⟩ := restriction_hides_nothing he hview hfiles hfewer
    (by simp) Shop.pageImport "/shop" ⟨default, default⟩ ⟨default, default⟩
  obtain ⟨all', hall', hfound⟩ := analyzeFiles_eq (Config.independent_engine he).declares
    Shop.pageImport Shop.apiAlone "/shop" .standard
    ["app/features/cart/hooks.ts", "app/features/cart/api.ts"] ⟨default, default⟩
  obtain rfl : all = all' := Except.ok.inj (hall.symm.trans hall')
  have hfewIds : (analyzeFiles Shop.pageImport Shop.apiAlone "/shop" .standard Shop.engine
      ["app/features/cart/hooks.ts"] ⟨default, default⟩).value.map
        (fun r => r.violations.map Violation.messageId) =
      .ok (List.replicate 6 "missingBaseline" ++ ["invalidLayerImport"]) := by decide +kernel
  rw [hfew] at hfewIds
  have hsorted : Text.sorted ["app/features/cart/hooks.ts", "app/features/cart/api.ts"] =
      ["app/features/cart/api.ts", "app/features/cart/hooks.ts"] :=
    Text.sorted_eq_of_perm (by decide +kernel) (by decide +kernel)
  refine ⟨all, few, hall, hfew, ?_, Except.ok.inj hfewIds, hkept _ (by simp)⟩
  rw [hfound, Engine.filter_found (Config.independent_engine he).declares
    ((Text.sorted_perm _).nodup_iff.2 hfiles) (Text.mem_sorted.2 (by simp)),
    Config.runContext, RunContext.build, hsorted]
  decide +kernel

end SliceLint
