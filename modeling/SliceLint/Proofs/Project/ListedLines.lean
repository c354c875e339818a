import SliceLint.Proofs.Disk.ReadBack
import SliceLint.Proofs.Project.Discovery
import SliceLint.Proofs.Project.Severity
import SliceLint.Proofs.Report.LineList
import SliceLint.Proofs.Rule.LineBreaks

/-!
# The lines of a run

The list with a line for each violation is read line by line by other programs. In a run over files
with plain names, everything in front of a message is plain, and messages quote texts of the source
and names from the options as they come.

**Violations** (`Engine.mem_found_cases`). A violation of a file tells why the file has no tree, or
reports what a call of a rule finds.

**Names** (`FileContext.namesOneLine_inRun`). What rules take from the path of a file is of one line
when the path is, even where the name of the project folder is not: a file that is read has a name of
its own (`Disk.readText_ne_ok`).

Main result: `analyze_listed`, about the results of a run over a project.
-/

namespace SliceLint

/-! ## Files -/

/-- A path without a name of its own leads to the project folder, which has no text. -/
theorem Disk.readText_ne_ok {d : Disk} {root file : String} (hroot : d.isFolder root = .ok true)
    (hrelative : Path.isAbsolute file = false) (hnone : Path.spelledSegments file = [])
    (text : String) : d.readText (Path.below root file) ≠ .ok text := by
  intro hread
  obtain ⟨bytes, hentry⟩ : ∃ bytes, d.entry (Path.below root file) = .ok (.file bytes) := by
    unfold readText at hread
    cases hbytes : d.readBytes (Path.below root file) with
    | error f =>
      rw [hbytes] at hread
      cases hread
    | ok bytes =>
      unfold readBytes at hbytes
      split at hbytes
      · rename_i bytes' hentry
        exact ⟨bytes', hentry⟩
      · cases hbytes
      · cases hbytes
  obtain ⟨members, hfolder⟩ := exists_folder_of_isFolder hroot
  have hplace : d.place (Path.below root file) = d.place root := by
    have hkept : ∀ seg ∈ Path.spelledSegments root, Path.IsKept seg := fun _ =>
      Path.isKept_of_mem_spelledSegments
    rw [Path.below, if_neg (by rw [hrelative]; exact Bool.false_ne_true), hnone, List.append_nil,
      d.place_spell (Path.isRoot_rootOf root) hkept, d.place_eq]
  have hfile := at?_of_entry hentry
  rw [hplace, at?_of_entry hfolder] at hfile
  cases hfile

theorem Coordinate.slice_mem_segments {path sourceRoot slice : String} {c : Coordinate}
    (h : ofPath? path sourceRoot = some c) (hslice : c.slice = some slice) :
    slice ∈ Path.segments path := by
  obtain ⟨rest, hpath, hrest⟩ := ofPath?_eq_some_iff.1 h
  rw [hpath]
  exact List.mem_append_right _ (slice_mem_of_ofSegments? hrest hslice)

theorem Path.segment_subset {path seg : String} (h : seg ∈ segments path) :
    seg.toList ⊆ path.toList := by
  obtain ⟨piece, hpiece, rfl⟩ := List.mem_map.1 (List.mem_of_mem_filter h)
  rw [String.toList_ofList]
  exact Text.subset_of_mem_cut hpiece

/-- The names that rules take from a file are of one line when its path is. -/
theorem FileContext.namesOneLine_inRun {run : RunContext} (hview : run.view.TellsOneLine)
    {file : String} (hfile : OneLine file) (text : String) :
    (FileContext.inRun run file text).NamesOneLine where
  name := by
    intro hextension
    show OneLine (Path.name (Path.below run.projectRoot file))
    have hnamed : Path.spelledSegments file ≠ [] := Path.spelledSegments_ne_nil hextension
    rw [Path.name_below _ (Or.inr hnamed)]
    exact hfile.of_subset (Path.name_subset file)
  slice := fun hc hslice =>
    hfile.of_subset (Path.segment_subset (Coordinate.slice_mem_segments hc hslice))
  view := hview

/-! ## Violations -/

namespace Engine

variable {e : Engine} {read : String → Except Fault String} {run : RunContext} {file : String}
  {v : Violation}

/-- The violation reports what a call of a rule finds in the file. -/
def ReportsCall (e : Engine) (ctx : FileContext) (v : Violation) : Prop :=
  ∃ c : Call, c.Genuine e.rules ctx ∧ ∃ x ∈ c.findings, e.Reports ctx.relPath ctx.lines x v

theorem reportsCall_of_mem {ctx : FileContext} {calls : List Call} {n : Nat} {vs : List Violation}
    (hcalls : ∀ c ∈ calls, c.Genuine e.rules ctx)
    (h : e.violations ctx.relPath ctx.lines n (calls.flatMap Call.findings) = .ok vs)
    (hv : v ∈ vs) : e.ReportsCall ctx v := by
  obtain ⟨x, hx, hreports⟩ := exists_of_mem_forall₂ (forall₂_reports h) hv
  obtain ⟨c, hc, hx⟩ := List.mem_flatMap.1 hx
  exact ⟨c, hcalls c hc, x, hx, hreports⟩

theorem mem_reportUnparsed {ctx : FileContext} {first : Violation} {note : String}
    {r : FileReport} (h : e.reportUnparsed ctx first note = .ok r) (hv : v ∈ r.violations) :
    v = first ∨ e.ReportsCall ctx v := by
  obtain ⟨vs, hvs, rfl⟩ := map_eq_ok h
  rcases List.mem_cons.1 hv with rfl | hv
  · exact Or.inl rfl
  · exact Or.inr (reportsCall_of_mem (fun _ => genuine_of_mem_traceUnparsed) hvs hv)

theorem mem_reportParsed {ctx : FileContext} {dialect : Dialect} {tree : Tree} {r : FileReport}
    (h : e.reportParsed ctx dialect tree = .ok r) (hv : v ∈ r.violations) :
    e.ReportsCall ctx v := by
  obtain ⟨vs, hvs, rfl⟩ := map_eq_ok h
  exact reportsCall_of_mem (fun _ => genuine_of_mem_traceOf) hvs hv

/-- **Violations.** A violation of a file tells that it cannot be read, or that it cannot be parsed,
or reports what a call of a rule finds in it. -/
theorem mem_found_cases [SourceReader] (h : v ∈ e.found read run file) :
    (∃ fault, read (Path.below run.projectRoot file) = .error fault ∧
      v = parseViolation file ("Cannot read file: " ++ fault.text) 1 1 "") ∨
    (∃ text fault, read (Path.below run.projectRoot file) = .ok text ∧
      readSource (Path.suffix (Path.below run.projectRoot file)) text = .error fault ∧
      v = parseViolation file fault.message fault.line fault.column text) ∨
    ∃ text, e.ReportsCall (.inRun run file text) v := by
  unfold found at h
  dsimp only at h
  split at h
  · rename_i r hr
    unfold report at hr
    dsimp only at hr
    split at hr
    · rename_i fault hread
      rcases mem_reportUnparsed hr h with rfl | hcall
      · exact Or.inl ⟨fault, hread, rfl⟩
      · exact Or.inr (Or.inr ⟨"", hcall⟩)
    · rename_i text hread
      split at hr
      · rename_i fault hparse
        rcases mem_reportUnparsed hr h with rfl | hcall
        · exact Or.inr (Or.inl ⟨text, fault, hread, hparse, rfl⟩)
        · exact Or.inr (Or.inr ⟨text, hcall⟩)
      · exact Or.inr (Or.inr ⟨text, mem_reportParsed hr h⟩)
  · exact absurd h List.not_mem_nil

end Engine

theorem SourceFault.oneLine_message [SourceReader] {suffix text : String} {f : SourceFault}
    (hsuffix : OneLine suffix) (h : readSource suffix text = .error f) : OneLine f.message := by
  cases f with
  | unsupported s =>
    have hs : s = suffix := by
      unfold readSource at h
      split at h
      · cases h
        rfl
      · have hfault := map_eq_error h
        unfold Tree.sound at hfault
        split at hfault <;> cases hfault
    rw [hs]
    exact oneLine_append.2 ⟨by decide, hsuffix⟩
  | unexpected place =>
    unfold SourceFault.message
    simp +decide

section Run

variable {d : Disk} {root : String} {c : Config} {e : Engine} {files : List String} {file : String}
  {v : Violation}

/-- The message of a violation of a run is of one line exactly when no newline is quoted in it. -/
theorem oneLine_found_iff [SourceReader] (he : c.engine = .ok e)
    (hroot : d.isFolder root = .ok true) (hfile : OneLine file)
    (hv : v ∈ e.found d.readText (c.runContext root files d.view) file) :
    OneLine v.message ↔ ¬ QuotesBreak v.messageId v.data := by
  have hparse : ¬ QuotesBreak "parseError" [] := not_quotesBreak (by decide) []
  rcases Engine.mem_found_cases hv with
    ⟨fault, hread, rfl⟩ | ⟨text, fault, hread, hfault, rfl⟩ |
      ⟨text, call, hcall, x, hx, hreports⟩
  · refine iff_of_true (oneLine_append.2 ⟨by decide, ?_⟩) hparse
    exact (Disk.tellsOneLine_readText hread).text
  · refine iff_of_true (SourceFault.oneLine_message ?_ hfault) hparse
    have hnamed : Path.isAbsolute file = true ∨ Path.spelledSegments file ≠ [] := by
      by_contra hnone
      simp only [not_or, Bool.not_eq_true, not_not] at hnone
      exact Disk.readText_ne_ok hroot hnone.1 hnone.2 text hread
    have hname : OneLine (Path.name (Path.below root file)) := by
      rw [Path.name_below root hnamed]
      exact hfile.of_subset (Path.name_subset file)
    exact hname.of_subset (Path.splitSuffix_subset _).2
  · obtain ⟨configured, -, hrule, -⟩ := Config.exists_builtin_of_mem_engine he hcall.1
    exact Engine.oneLine_iff (FileContext.namesOneLine_inRun d.tellsOneLine_view hfile text)
      hrule.symm hcall hx hreports

/-- What stands in front of the message is plain, if the path of the file is. -/
theorem isListable_of_mem_found [SourceReader] (he : c.engine = .ok e)
    (hplain : IsPlainField v.file)
    (hv : v ∈ e.found d.readText (c.runContext root files d.view) file) : v.IsListable := by
  have hname : ∀ s : Severity, s.IsCounted → IsPlainField s.name := by
    rintro _ (rfl | rfl) <;> exact ⟨by decide, by decide⟩
  rcases Engine.severity_of_mem_found (Config.independent_engine he).declares hv with
    hlead | ⟨r, hr, hrule, hseverity⟩
  · refine ⟨hplain, hname _ (Or.inl hlead.severity_eq), ?_⟩
    rw [hlead.rule_eq]
    exact ⟨by decide, by decide⟩
  · obtain ⟨configured, b, rfl, hid, -⟩ := Config.exists_builtin_of_mem_engine he hr
    refine ⟨hplain, hname _ ?_, ?_⟩
    · rw [hseverity]
      split
      · exact Or.inr rfl
      · rw [Engine.severityOf, hid, Config.overrides_of_engine he, Config.lookup_overrides]
        cases hs : (c.settings b).level?.bind Level.severity? with
        | none => exact configured.isCounted v.messageId
        | some s =>
          obtain ⟨level, -, hlevel⟩ := Option.bind_eq_some_iff.1 hs
          exact Level.isCounted hlevel
    · rw [hrule, hid]
      cases b <;> exact ⟨by decide, by decide⟩

end Run

/-! ## Runs -/

/-- **Lines.** Let the project be a folder, and let the paths of the files that are reported have
neither a colon nor a newline in them. A violation takes one line of the list, and one more for each
newline in its message. The message has one exactly when it quotes one: a value of a property, a
slice, a service or a client that is imported, or a file that an option asks for. So the list gives
the violations in order, one a line and field by field, exactly when no newline is quoted. -/
theorem analyze_listed [SourceReader] {d : Disk} {root : String} {c : Config} {scope : Scope}
    {clock : Clock} {results : Results} (hroot : d.isFolder root = .ok true)
    (h : (analyze d root c scope clock).value = .ok results)
    (hplain : ∀ v ∈ results.violations, IsPlainField v.file) :
    results.lines.length =
        (results.violations.map fun v => v.message.toList.count '\n' + 1).sum ∧
      (∀ v ∈ results.violations, '\n' ∈ v.message.toList ↔ QuotesBreak v.messageId v.data) ∧
      (results.ReadsBack ↔ ∀ v ∈ results.violations, ¬ QuotesBreak v.messageId v.data) := by
  obtain ⟨e, files, he, -, hanalyzed⟩ := exists_of_analyze h
  have hrules := (Config.independent_engine he).declares
  obtain ⟨results', hresults, hviolations⟩ :=
    analyzeFiles_eq hrules d.readText d.view root c files clock
  cases hresults.symm.trans hanalyzed
  have hfound : ∀ v ∈ results.violations,
      v ∈ e.found d.readText (c.runContext root files d.view) v.file := by
    intro v hv
    rw [hviolations] at hv
    obtain ⟨file, -, hv⟩ := List.mem_flatMap.1 hv
    rwa [Engine.file_of_mem_found hrules hv]
  have hlistable : ∀ v ∈ results.violations, v.IsListable := fun v hv =>
    isListable_of_mem_found he (hplain v hv) (hfound v hv)
  have hline : ∀ v ∈ results.violations, OneLine v.message ↔ ¬ QuotesBreak v.messageId v.data :=
    fun v hv => oneLine_found_iff he hroot (hplain v hv).no_newline (hfound v hv)
  refine ⟨Results.length_lines hlistable, fun v hv => ?_, ?_⟩
  · have hbreak := not_congr (hline v hv)
    rwa [OneLine, not_not, not_not] at hbreak
  · rw [Results.readsBack_iff hlistable]
    exact forall₂_congr hline

/-! ## A missing file -/

namespace Shop

/-- A file of the cart that is not there. -/
def lostFile : String := "app/features/cart/lost.ts"

/-- The results of a run over the lost file. -/
def lostResults (c : Config) (e : Engine) : Results :=
  .of (e.found disk.readText (c.runContext "/" [lostFile] disk.view) lostFile) 1 default default

theorem analyze_lost {c : Config} {e : Engine} (he : c.engine = .ok e) :
    (analyze disk "/" c (.given [lostFile]) ⟨default, default⟩).value = .ok (lostResults c e) := by
  have hpicked : (Selection.pick "/" [lostFile]).value = [lostFile] := by decide +kernel
  have hsorted : Text.sorted [lostFile] = [lostFile] := by decide +kernel
  obtain ⟨results, hresults, hviolations⟩ :=
    analyzeFiles_eq (Config.independent_engine he).declares disk.readText disk.view "/" c [lostFile]
      ⟨default, default⟩
  rw [hsorted, List.flatMap_singleton] at hviolations
  have heq : results = lostResults c e := by
    rw [results_of_analyzeFiles hresults, hviolations]
    rfl
  unfold analyze
  simp only [he, Scope.files, hpicked, hresults, heq]
  rfl

end Shop

/-- The lost file is reported, and so is the file that its slice is asked for. Nothing that is quoted
has a newline in it, so both are read back. -/
theorem analyze_listed_lost :
    ∃ results : Results,
      Shop.disk.isFolder "/" = .ok true ∧
      (analyze Shop.disk "/" (Shop.asking ["notes.md"]) (.given [Shop.lostFile])
        ⟨default, default⟩).value = .ok results ∧
      (∀ v ∈ results.violations, IsPlainField v.file) ∧ results.ReadsBack := by
  have hroot : Shop.disk.isFolder "/" = .ok true := by decide +kernel
  obtain ⟨e, he, hplain⟩ : ∃ e, (Shop.asking ["notes.md"]).engine = .ok e ∧
      ∀ v ∈ (Shop.lostResults (Shop.asking ["notes.md"]) e).violations,
        IsPlainField v.file ∧ '\n' ∉ v.message.toList :=
    ⟨_, rfl, by decide +kernel⟩
  have hanalyzed := Shop.analyze_lost he
  obtain ⟨-, hquotes, hback⟩ := analyze_listed hroot hanalyzed fun v hv => (hplain v hv).1
  refine ⟨_, hroot, hanalyzed, fun v hv => (hplain v hv).1, hback.2 fun v hv hbreak => ?_⟩
  exact (hplain v hv).2 ((hquotes v hv).2 hbreak)

/-- A style whose color is continued on the next line. -/
def Shop.foldedText : String :=
  "export const View = () => <div style=\x7b\x7b color: '#fff\\\n000' \x7d\x7d />;\n"

/-- A project with the style in its only file. -/
def Shop.folded : Disk :=
  ⟨Entry.chain Shop.foldedText.toUTF8.data.toList ["app", "features", "cart", "view.tsx"], "/"⟩

/-- A configuration that asks no feature for any file. -/
def Shop.unasking : Config := { Config.standard with rules := [(.sliceBaseline, ⟨some .off, []⟩)] }

/-- The color is quoted as it stands, so that one violation takes two lines and the list is not read
back. -/
theorem exists_not_readsBack :
    ∃ results : Results,
      Shop.folded.isFolder "/" = .ok true ∧
      (analyze Shop.folded "/" Shop.unasking .project ⟨default, default⟩).value = .ok results ∧
      (∀ v ∈ results.violations, IsPlainField v.file) ∧
      results.violations.length = 1 ∧ results.lines.length = 2 ∧ ¬ results.ReadsBack := by
  obtain ⟨results, hanalyzed, hrun⟩ := exists_of_map_toOption
    (show (analyze Shop.folded "/" Shop.unasking .project ⟨default, default⟩).value.toOption.map
        (fun r => r.violations.map fun v =>
          (v.file, v.severity, v.rule, v.message.toList.count '\n')) =
      some [("app/features/cart/view.tsx", .error, "no-literal-style-values", 1)] by
    decide +kernel)
  obtain ⟨v, hviolations, hfields⟩ := List.map_eq_singleton_iff.1 hrun
  obtain ⟨hfile, hseverity, hrule, hbreaks⟩ : v.file = "app/features/cart/view.tsx" ∧
      v.severity = .error ∧ v.rule = "no-literal-style-values" ∧
      v.message.toList.count '\n' = 1 := by simpa using hfields
  have hlistable : v.IsListable := by
    refine ⟨?_, ?_, ?_⟩
    · rw [hfile]
      decide
    · rw [hseverity]
      decide
    · rw [hrule]
      decide
  have hall : ∀ w ∈ results.violations, w.IsListable := by
    rw [hviolations]
    exact List.forall_mem_singleton.2 hlistable
  refine ⟨results, by decide +kernel, hanalyzed, fun w hw => (hall w hw).file, ?_, ?_, ?_⟩
  · rw [hviolations, List.length_singleton]
  · rw [Results.length_lines hall, hviolations, List.map_singleton, hbreaks, List.sum_singleton]
  · rw [Results.readsBack_iff hall, hviolations]
    intro hone
    refine hone v (List.mem_singleton_self v) (List.count_pos_iff.1 ?_)
    rw [hbreaks]
    exact Nat.one_pos

end SliceLint
