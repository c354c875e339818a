import SliceLint.Command.Run
import SliceLint.Proofs.Project.Discovery
import SliceLint.Proofs.Project.Run

/-!
# How runs end

**Files without a tree** (`Engine.Accounts`). The first violation of a file that cannot be read or
parsed tells so, no other does, and what follows comes from rules that need no tree.

**Ends** (`run_completes`). The rules of a configuration declare what they report, so nothing that
is read, and nothing a disk answers, stops a run over given files. A run ends without results when
the options of an enabled rule are refused, when the source root is no folder, and when a name in
the source root is longer than a disk allows. The first two are told in order; the third leaves the
question of the folder open, and the program crashes (`run_crashes_overlong`).
-/

namespace SliceLint

/-! ## Files without a tree -/

namespace Engine

/-- What the violations of a file say about its tree. -/
structure Accounts [SourceReader] (e : Engine) (path file : String) (text : Except Fault String)
    (vs : List Violation) : Prop where
  unparsed : treeOf? path text = none → ∃ first rest, vs = first :: rest ∧ first.Leads file ∧
    ∀ v ∈ rest, v.rule ≠ parseRule ∧ ∃ r ∈ e.rules, r.onUnparsed?.isSome ∧ v.rule = r.info.id
  parsed : treeOf? path text ≠ none → ∀ v ∈ vs, v.rule ≠ parseRule

/-- The results of a run come from its files in order, and every file is accounted for. -/
structure Explains [SourceReader] (e : Engine) (read : String → Except Fault String)
    (run : RunContext) (results : Results) : Prop where
  violations : results.violations = run.files.flatMap (e.found read run)
  files : ∀ file ∈ run.files, e.Accounts (Path.below run.projectRoot file) file
    (read (Path.below run.projectRoot file)) (e.found read run file)

/-- **Files without a tree.** Every file is accounted for by what is found in it. -/
theorem accounts_found [SourceReader] {e : Engine} (hrules : ∀ r ∈ e.rules, r.Declares)
    (hids : ∀ r ∈ e.rules, r.info.id ≠ parseRule) (read : String → Except Fault String)
    (run : RunContext) (file : String) :
    e.Accounts (Path.below run.projectRoot file) file (read (Path.below run.projectRoot file))
      (e.found read run file) := by
  obtain ⟨lead, text, tree?, htree, hlead, hlength, hfound⟩ :=
    found_cases read run.projectRoot file
  obtain ⟨vs, hvs, hreports⟩ := hfound e run hrules rfl
  rw [hvs]
  constructor
  · intro hnone
    rw [htree] at hnone
    subst hnone
    obtain ⟨first, rfl⟩ := List.length_eq_one_iff.1 hlength
    refine ⟨first, vs, rfl, hlead first (List.mem_singleton_self _), fun v hv => ?_⟩
    have hcalls : ∀ c ∈ traceUnparsed e.rules (.inRun run file text),
        c.Genuine (e.rules.filter fun r => r.onUnparsed?.isSome) (.inRun run file text) := by
      intro c hc
      rw [← traceUnparsed_able] at hc
      exact genuine_of_mem_traceUnparsed hc
    obtain ⟨r, hr, f, hv⟩ := exists_rule_of_mem_reports hcalls hreports hv
    obtain ⟨hmem, hable⟩ := List.mem_filter.1 hr
    rw [hv.rule_eq]
    exact ⟨hids r hmem, r, hmem, hable, rfl⟩
  · intro hsome v hv
    rw [htree] at hsome
    rw [if_pos (Option.isSome_iff_ne_none.2 hsome), List.length_eq_zero_iff] at hlength
    rw [hlength, List.nil_append] at hv
    obtain ⟨r, hr, f, hv⟩ :=
      exists_rule_of_mem_reports (fun _ => genuine_of_mem_traceFile) hreports hv
    rw [hv.rule_eq]
    exact hids r hr

end Engine

/-! ## Runs -/

theorem Config.ids_ne_parseRule {c : Config} {e : Engine} (h : c.engine = .ok e) :
    ∀ r ∈ e.rules, r.info.id ≠ parseRule := by
  intro r hr
  obtain ⟨_, b, -, hid, -⟩ := exists_builtin_of_mem_engine h hr
  rw [hid]
  exact b.id_ne_parseRule

/-- The rules of a configuration account for every file, whatever is read and answered. -/
theorem explains_of_engine [SourceReader] {c : Config} {e : Engine} (h : c.engine = .ok e)
    (read : String → Except Fault String) (view : FileView) (root : String) (files : List String)
    (clock : Clock) :
    ∃ results, (analyzeFiles read view root c e files clock).value = .ok results ∧
      e.Explains read (c.runContext root files view) results := by
  have hdeclares := (Config.independent_engine h).declares
  obtain ⟨results, hresults, hviolations⟩ :=
    analyzeFiles_eq hdeclares read view root c files clock
  exact ⟨results, hresults, hviolations, fun file _ =>
    Engine.accounts_found hdeclares (Config.ids_ne_parseRule h) read _ file⟩

/-- Where no files are found, the disk says that the source root is no folder, or says nothing. -/
theorem Selection.discover_cases (d : Disk) (root : String) (c : Config) :
    (∃ files, (discover d root c).value = .ok files) ∨
    (d.isFolder (Path.below root c.sourceRoot) = .ok false ∧
      discover d root c = ⟨[], .error (.missingRoot ⟨c.sourceRoot, root⟩)⟩) ∨
    (d.entry (Path.below root c.sourceRoot) = .error .nameTooLong ∧
      discover d root c = ⟨[], .error (.disk
        (DiskFault.nameTooLong.onPath (Path.below root c.sourceRoot)))⟩) := by
  cases hfolder : d.isFolder (Path.below root c.sourceRoot) with
  | error fault =>
    obtain ⟨hentry, rfl⟩ := Disk.fault_of_isFolder hfolder
    refine Or.inr (Or.inr ⟨hentry, ?_⟩)
    simp only [discover, hfolder]
  | ok answer =>
    cases answer with
    | false =>
      refine Or.inr (Or.inl ⟨rfl, ?_⟩)
      simp only [discover, hfolder]
    | true =>
      obtain ⟨e, hentry⟩ : ∃ e, d.entry (Path.below root c.sourceRoot) = .ok e := by
        unfold Disk.isFolder Disk.holds at hfolder
        split at hfolder
        · exact ⟨_, ‹_›⟩
        all_goals cases hfolder
      refine Or.inl ⟨included c (sources d root c.sourceRoot e), ?_⟩
      simp only [discover, hfolder, hentry]

/-- **Ends of a run.** The built-in rules declare what they report, with whatever options they are
made. What is read and answered does not keep a run from its results, in which every file is
accounted for. A run over a project ends otherwise before a file is read: when the options of a rule
are refused, when the source root is no folder, and when a name on the way to it is too long for the
disk to say. -/
theorem run_completes [SourceReader] (c : Config) :
    (∀ r : ConfiguredRule, r.rule.Declares) ∧
    (∀ e, c.engine = .ok e → ∀ read view root files clock, ∃ results,
      (analyzeFiles read view root c e files clock).value = .ok results ∧
        e.Explains read (c.runContext root files view) results) ∧
    ∀ d root scope clock,
      (∃ e files results, c.engine = .ok e ∧ (scope.files d root c).value = .ok files ∧
        (analyze d root c scope clock).value = .ok results ∧
          e.Explains d.readText (c.runContext root files d.view) results) ∨
      (∃ f, c.engine = .error f ∧ analyze d root c scope clock = ⟨[], .error (.options f)⟩) ∨
      (scope = .project ∧ d.isFolder (Path.below root c.sourceRoot) = .ok false ∧
        analyze d root c scope clock =
          ⟨[], .error (.selection (.missingRoot ⟨c.sourceRoot, root⟩))⟩) ∨
      (scope = .project ∧ d.entry (Path.below root c.sourceRoot) = .error .nameTooLong ∧
        analyze d root c scope clock = ⟨[], .error (.selection (.disk
          (DiskFault.nameTooLong.onPath (Path.below root c.sourceRoot))))⟩) := by
  refine ⟨ConfiguredRule.declares, fun e he => explains_of_engine he, fun d root scope clock => ?_⟩
  cases hengine : c.engine with
  | error f =>
    refine Or.inr (Or.inl ⟨f, rfl, ?_⟩)
    simp only [analyze, hengine]
  | ok e =>
    have hgiven : ∀ files, (scope.files d root c).value = .ok files →
        ∃ results, (analyze d root c scope clock).value = .ok results ∧
          e.Explains d.readText (c.runContext root files d.view) results := by
      intro files hfiles
      obtain ⟨results, hresults, hexplains⟩ :=
        explains_of_engine hengine d.readText d.view root files clock
      refine ⟨results, ?_, hexplains⟩
      simp only [analyze, hengine, hfiles, hresults]
      rfl
    have hrefused : ∀ fault, scope.files d root c = ⟨[], .error fault⟩ →
        analyze d root c scope clock = ⟨[], .error (.selection fault)⟩ := by
      intro fault hfault
      simp only [analyze, hengine, hfault]
    cases scope with
    | given paths =>
      obtain ⟨results, hresults, hexplains⟩ := hgiven _ rfl
      exact Or.inl ⟨e, _, results, rfl, rfl, hresults, hexplains⟩
    | project =>
      rcases Selection.discover_cases d root c with
        ⟨files, hfiles⟩ | ⟨hfolder, hmissing⟩ | ⟨hentry, hlong⟩
      · obtain ⟨results, hresults, hexplains⟩ := hgiven files hfiles
        exact Or.inl ⟨e, files, results, rfl, hfiles, hresults, hexplains⟩
      · exact Or.inr (Or.inr (Or.inl ⟨rfl, hfolder, hrefused _ hmissing⟩))
      · exact Or.inr (Or.inr (Or.inr ⟨rfl, hentry, hrefused _ hlong⟩))

/-! ## A name that is too long -/

namespace Shop

/-- A name of 256 letters. -/
def overlong : String := String.ofList (List.replicate 256 'a')

theorem isName_letters {n : Nat} (h : 2 < n) :
    Path.IsName (String.ofList (List.replicate n 'a')) := by
  have hne : ∀ name : String, name.length ≤ 2 → String.ofList (List.replicate n 'a') ≠ name := by
    rintro _ hlength rfl
    rw [String.length_ofList, List.length_replicate] at hlength
    omega
  refine ⟨hne _ (by decide), hne _ (by decide), hne _ (by decide), fun hslash => ?_⟩
  rw [String.toList_ofList] at hslash
  exact absurd (List.eq_of_mem_replicate hslash) (by decide)

theorem hasNull_letters (n : Nat) :
    Path.hasNull (String.ofList (List.replicate n 'a')) = false := by
  simp [Path.hasNull]

theorem head?_letters (n : Nat) :
    (String.ofList (List.replicate (n + 1) 'a')).toList.head? = some 'a' := by
  rw [String.toList_ofList]
  rfl

/-- A shop whose source root cannot be looked at crashes the program. -/
theorem run_crashes {root : String} {fault : Fault}
    (hroot : Config.readSourceRoot (some (.text root)) = .ok root)
    (hfolder : disk.isFolder (Path.below "/" root) = .error fault) :
    ∃ c f, Config.ofValue (rooted root) = .ok c ∧
      (analyze disk "/" c .project ⟨default, default⟩).value = .error f ∧
      f.shown = .error fault := by
  have hconfig : Config.ofValue (rooted root) = .ok { Config.standard with
      sourceRoot := root, aliases := Config.standardAliases root } := by
    have hfind : Value.find? [(.text "source_root", .text root)] "source_root" =
        some (.text root) := rfl
    simp only [Config.ofValue, rooted, hfind, hroot]
    rfl
  refine ⟨_, .selection (.disk fault), hconfig, ?_, rfl⟩
  simp only [analyze, Scope.files, Selection.discover, hfolder]
  rfl

end Shop

/-- A configuration may name a source root so long that the program crashes. -/
theorem run_crashes_overlong :
    ∃ c fault, Config.ofValue (Shop.rooted Shop.overlong) = .ok c ∧
      (analyze Shop.disk "/" c .project ⟨default, default⟩).value = .error fault ∧
      fault.shown = .error (DiskFault.nameTooLong.onPath ("/" ++ Shop.overlong)) := by
  have hname : Path.IsName Shop.overlong := Shop.isName_letters (by decide)
  have hroot : Config.readSourceRoot (some (.text Shop.overlong)) = .ok Shop.overlong := by
    have htrim := Text.trim_of_notMem hname.no_slash
    have hne : (Shop.overlong == "") = false := beq_eq_false_iff_ne.2 hname.ne_empty
    simp [Config.readSourceRoot, Value.plain, htrim, hne]
  exact Shop.run_crashes hroot
    (Disk.isFolder_of_overlong rfl hname (Shop.hasNull_letters _) (by decide +kernel)
      (by decide +kernel))

end SliceLint
