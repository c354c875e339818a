import SliceLint.Proofs.Engine.Isolation
import SliceLint.Proofs.Path.Resolution
import SliceLint.Proofs.Project.Discovery
import SliceLint.Proofs.Project.Run

/-!
# Which files are taken for the module of a feature

The rule on contracts is about one file of each slice of the features: the module `api.ts` or `api.js`
directly in the folder of the slice (`IsModuleOf`). The rule does not ask for the coordinate of a file.
It looks at the last three segments of the path, of which the first has to be `features`.

**Modules** (`isModuleOf_iff`). A file is the module of a slice when it has the coordinate of the slice
and lies directly in its folder.

**Lookalikes** (`IsLookalike`). A folder that is called `features` and is not the layer may stand
anywhere: below a slice, below another layer, or in the source root itself. The files `api.ts` and
`api.js` two levels below it look like modules, and they are the only other files that do.

Main result: `modules_reported`. No module is passed over, and where there is no lookalike nothing else
is reported. A page with a folder of that name is reported all the same
(`lookalike_reported_page`).
-/

namespace SliceLint

/-- The path is written with plain names. -/
def Path.IsPlain (p : String) : Prop :=
  ∃ names, names ≠ [] ∧ (∀ name ∈ names, IsName name) ∧ p = Text.join "/" names

namespace ApiContract

/-- The names of the module. -/
def moduleNames : List String := ["api.ts", "api.js"]

/-- The file is the module of a slice of the features. -/
def IsModuleOf (sourceRoot slice file : String) : Prop :=
  Path.IsName slice ∧
    ∃ name ∈ moduleNames, file = sourceRoot ++ "/features/" ++ slice ++ "/" ++ name

/-- The file is called like a module and lies two levels below a folder called `features`, which is
not the layer. -/
def IsLookalike (sourceRoot file : String) : Prop :=
  ∃ front slice name, name ∈ moduleNames ∧
    Path.segments file = front ++ ["features", slice, name] ∧ front ≠ Path.segments sourceRoot

end ApiContract

/-! ## Paths -/

/-- The last three pieces of a path decide whether it looks like a module. -/
theorem FileKind.isApiModule_iff {path : String} : isApiModule path = true ↔
    ∃ front slice name, Path.pieces path = front ++ ["features", slice, name] ∧ slice ≠ "" ∧
      name ∈ ["api.ts", "api.js", "api.ts\n", "api.js\n"] := by
  constructor
  · intro h
    unfold isApiModule at h
    split at h
    · rename_i name slice front hback
      obtain ⟨hslice, hname⟩ := Bool.and_eq_true_iff.1 h
      refine ⟨front.reverse, slice, name, ?_, bne_iff_ne.1 hslice, List.contains_iff_mem.1 hname⟩
      rw [← List.reverse_reverse (Path.pieces path), hback]
      simp
    · cases h
  · rintro ⟨front, slice, name, hpieces, hslice, hname⟩
    have hback : (Path.pieces path).reverse = name :: slice :: "features" :: front.reverse := by
      rw [hpieces]
      simp
    unfold isApiModule
    rw [hback]
    exact Bool.and_eq_true_iff.2 ⟨bne_iff_ne.2 hslice, List.contains_iff_mem.2 hname⟩

/-- A file below a source root, both written with plain names, with an extension that can be
parsed. -/
structure SourceFile where
  roots : List String
  way : List String
  name : String
  isName : ∀ seg ∈ roots ++ (way ++ [name]), Path.IsName seg
  roots_ne_nil : roots ≠ []
  isSource : Selection.isSource (Path.extension name) = true

namespace SourceFile

def sourceRoot (s : SourceFile) : String := Text.join "/" s.roots

def path (s : SourceFile) : String := Text.join "/" (s.roots ++ (s.way ++ [s.name]))

variable (s : SourceFile) {slice : String}

theorem isName_roots : ∀ seg ∈ s.roots, Path.IsName seg :=
  fun seg hseg => s.isName seg (List.mem_append_left _ hseg)

theorem isName_folders : ∀ seg ∈ s.roots ++ s.way, Path.IsName seg := by
  intro seg hseg
  refine s.isName seg ?_
  rw [← List.append_assoc]
  exact List.mem_append_left _ hseg

theorem pieces_path : Path.pieces s.path = s.roots ++ (s.way ++ [s.name]) :=
  Path.pieces_join (by simp) fun seg hseg => (s.isName seg hseg).no_slash

theorem segments_path : Path.segments s.path = s.roots ++ (s.way ++ [s.name]) :=
  Path.segments_join (fun seg hseg => (s.isName seg hseg).no_slash)
    fun hempty => (s.isName "" hempty).ne_empty rfl

theorem segments_sourceRoot : Path.segments s.sourceRoot = s.roots :=
  Path.segments_join (fun seg hseg => (s.isName_roots seg hseg).no_slash)
    fun hempty => (s.isName_roots "" hempty).ne_empty rfl

end SourceFile

/-- What is found below a plain source root is such a file. -/
theorem Selection.exists_sourceFile {d : Disk} {root : String} {c : Config} {files : List String}
    {file : String} (hroot : Path.IsPlain c.sourceRoot) (hd : d.root.WellNamed)
    (h : (discover d root c).value = .ok files) (hfile : file ∈ files) :
    ∃ s : SourceFile, s.sourceRoot = c.sourceRoot ∧ s.path = file := by
  obtain ⟨roots, hne, hroots, hroot⟩ := hroot
  obtain ⟨e, hentry, rfl⟩ := exists_entry_of_discover h
  have hsource := (List.mem_filter.1 (Text.mem_sorted.1 hfile)).1
  obtain ⟨names, hnames, rfl⟩ := List.mem_map.1 hsource
  obtain ⟨hwalk, hextension⟩ := List.mem_filter.1 hnames
  obtain ⟨way, name, rfl⟩ :=
    (List.eq_nil_or_concat' names).resolve_left (Entry.ne_nil_of_mem_walk hwalk)
  have hway := (Disk.wellNamed_entry hd hentry).isName_of_mem_walk hwalk
  rw [List.getLast?_concat, Option.getD_some] at hextension
  refine ⟨⟨roots, way, name, List.forall_mem_append.2 ⟨hroots, hway⟩, hne, hextension⟩, hroot.symm,
    ?_⟩
  have hkept : Path.spelledSegments c.sourceRoot = roots := by
    rw [hroot]
    exact Path.spelledSegments_join fun seg hseg => (hroots seg hseg).isKept
  have hsome : ¬ (("" : String) == "" && (roots ++ (way ++ [name])).isEmpty) = true := by simp
  rw [hkept, Path.spell, if_neg hsome, String.empty_append]
  rfl

namespace SourceFile

variable (s : SourceFile) {slice : String}

theorem isApiModule_iff : FileKind.isApiModule s.path = true ↔
    ∃ front slice, ∃ name ∈ ApiContract.moduleNames,
      Path.segments s.path = front ++ ["features", slice, name] := by
  rw [FileKind.isApiModule_iff, s.pieces_path, s.segments_path]
  constructor
  · rintro ⟨front, slice, name, hpieces, -, hname⟩
    have hlast := congrArg List.getLast? hpieces
    have hextension := s.isSource
    obtain rfl : s.name = name := by simpa using hlast
    refine ⟨front, slice, s.name, ?_, hpieces⟩
    -- with a newline behind it the extension cannot be parsed
    simp only [List.mem_cons, List.not_mem_nil, or_false] at hname
    rcases hname with hname | hname | hname | hname <;> rw [hname] at hextension ⊢
    · decide
    · decide
    · exact absurd hextension (by decide)
    · exact absurd hextension (by decide)
  · rintro ⟨front, slice, name, hname, hsegments⟩
    have hslice : slice ∈ s.roots ++ (s.way ++ [s.name]) := by
      rw [hsegments]
      simp
    have hnames : ∀ name ∈ ApiContract.moduleNames,
        name ∈ ["api.ts", "api.js", "api.ts\n", "api.js\n"] := by decide
    exact ⟨front, slice, name, hsegments, (s.isName slice hslice).ne_empty, hnames name hname⟩

theorem join_slice (slice : String) :
    Text.join "/" (s.roots ++ ["features", slice]) = s.sourceRoot ++ "/features/" ++ slice := by
  have hroots := s.roots_ne_nil
  calc Text.join "/" (s.roots ++ ["features", slice])
      = Text.join "/" ((s.roots ++ ["features"]) ++ [slice]) := by simp
    _ = Text.join "/" s.roots ++ "/" ++ "features" ++ "/" ++ slice := by
      rw [Path.join_concat (by simp), Path.join_concat hroots]
    _ = s.sourceRoot ++ "/features/" ++ slice := by
      simp [sourceRoot, String.append_assoc]

theorem join_module (slice name : String) :
    Text.join "/" (s.roots ++ ["features", slice, name]) =
      s.sourceRoot ++ "/features/" ++ slice ++ "/" ++ name := by
  have hsplit : s.roots ++ ["features", slice, name] =
      (s.roots ++ ["features", slice]) ++ [name] := by simp
  rw [hsplit, Path.join_concat (by simp), s.join_slice]

theorem isModuleOf_iff_segments : ApiContract.IsModuleOf s.sourceRoot slice s.path ↔
    ∃ name ∈ ApiContract.moduleNames,
      Path.segments s.path = Path.segments s.sourceRoot ++ ["features", slice, name] := by
  have hparts : ∀ name ∈ ApiContract.moduleNames, Path.IsName name := by decide
  rw [s.segments_sourceRoot]
  constructor
  · rintro ⟨hslice, name, hname, hpath⟩
    refine ⟨name, hname, ?_⟩
    have hnames : ∀ seg ∈ s.roots ++ ["features", slice, name], Path.IsName seg := by
      simp only [List.forall_mem_append, List.forall_mem_cons]
      exact ⟨s.isName_roots, by decide, hslice, hparts name hname, fun _ hnil => by cases hnil⟩
    rw [hpath, ← s.join_module]
    exact Path.segments_join (fun seg hseg => (hnames seg hseg).no_slash)
      fun hempty => (hnames "" hempty).ne_empty rfl
  · rintro ⟨name, hname, hsegments⟩
    have hslice : slice ∈ s.roots ++ (s.way ++ [s.name]) := by
      rw [← s.segments_path, hsegments]
      simp
    refine ⟨s.isName slice hslice, name, hname, ?_⟩
    rw [← s.join_module, ← hsegments, s.segments_path]
    rfl

/-- A module looks like one, and so does a lookalike, and no other file does. -/
theorem isApiModule_iff_or : FileKind.isApiModule s.path = true ↔
    (∃ slice, ApiContract.IsModuleOf s.sourceRoot slice s.path) ∨
      ApiContract.IsLookalike s.sourceRoot s.path := by
  simp only [s.isApiModule_iff, s.isModuleOf_iff_segments]
  constructor
  · rintro ⟨front, slice, name, hname, hsegments⟩
    by_cases hfront : front = Path.segments s.sourceRoot
    · exact .inl ⟨slice, name, hname, hfront ▸ hsegments⟩
    · exact .inr ⟨front, slice, name, hname, hsegments, hfront⟩
  · rintro (⟨slice, name, hname, hsegments⟩ | ⟨front, slice, name, hname, hsegments, -⟩)
    · exact ⟨_, slice, name, hname, hsegments⟩
    · exact ⟨front, slice, name, hname, hsegments⟩

theorem not_isLookalike (h : ApiContract.IsModuleOf s.sourceRoot slice s.path) :
    ¬ ApiContract.IsLookalike s.sourceRoot s.path := by
  obtain ⟨name, -, hsegments⟩ := s.isModuleOf_iff_segments.1 h
  rintro ⟨front, slice', name', -, hsegments', hfront⟩
  obtain ⟨heq, -⟩ := List.append_inj' (hsegments'.symm.trans hsegments) rfl
  exact hfront heq

theorem directory_path : Path.directory s.path = Text.join "/" (s.roots ++ s.way) := by
  have hnames := s.isName
  rw [← List.append_assoc] at hnames
  have hpath : s.path = Text.join "/" ((s.roots ++ s.way) ++ [s.name]) := by
    rw [path, List.append_assoc]
  rw [hpath, Path.directory_join hnames]

theorem baseName_path : Path.baseName s.path = s.name := by
  obtain ⟨front, hjoin, hfront⟩ := Path.exists_join_concat (s.roots ++ s.way) s.name
  rw [List.append_assoc] at hjoin
  exact Path.baseName_of_front hjoin hfront (s.isName s.name (by simp)).no_slash

/-- **Modules.** The module of a slice has the coordinate of the slice and lies directly in its
folder. -/
theorem isModuleOf_iff : ApiContract.IsModuleOf s.sourceRoot slice s.path ↔
    Coordinate.ofPath? s.path s.sourceRoot = some ⟨.features, some slice⟩ ∧
      Path.directory s.path = s.sourceRoot ++ "/features/" ++ slice ∧
        Path.baseName s.path ∈ ApiContract.moduleNames := by
  rw [s.isModuleOf_iff_segments, s.directory_path, s.baseName_path, ← s.join_slice, s.segments_path,
    s.segments_sourceRoot]
  constructor
  · rintro ⟨name, hname, hsegments⟩
    rw [List.append_cancel_left_eq] at hsegments
    obtain ⟨hway, hlast⟩ : s.way = ["features", slice] ∧ [s.name] = [name] :=
      List.append_inj' hsegments rfl
    rw [hway, List.singleton_inj.1 hlast]
    refine ⟨?_, rfl, hname⟩
    refine Coordinate.ofPath?_of_segments Layer.isSliced_features (List.cons_ne_nil name []) ?_
    rw [s.segments_path, s.segments_sourceRoot, hsegments]
    rfl
  · rintro ⟨hcoordinate, hdirectory, hname⟩
    obtain ⟨rest, hrest, hslice⟩ := Coordinate.ofPath?_eq_some_iff.1 hcoordinate
    rw [s.segments_path, s.segments_sourceRoot, List.append_cancel_left_eq] at hrest
    have hmem : slice ∈ s.way ++ [s.name] := by
      rw [hrest]
      exact Coordinate.slice_mem_of_ofSegments? hslice rfl
    have hnames : ∀ seg ∈ s.roots ++ ["features", slice], Path.IsName seg := by
      simp only [List.forall_mem_append, List.forall_mem_cons]
      exact ⟨s.isName_roots, by decide, s.isName slice (List.mem_append_right _ hmem),
        fun _ hnil => by cases hnil⟩
    have hway : s.roots ++ s.way = s.roots ++ ["features", slice] := by
      have hsegments := congrArg Path.segments hdirectory
      rwa [Path.segments_join, Path.segments_join] at hsegments
      · exact fun seg hseg => (hnames seg hseg).no_slash
      · exact fun hempty => (hnames "" hempty).ne_empty rfl
      · exact fun seg hseg => (s.isName_folders seg hseg).no_slash
      · exact fun hempty => (s.isName_folders "" hempty).ne_empty rfl
    refine ⟨s.name, hname, ?_⟩
    rw [List.append_cancel_left_eq] at hway
    rw [hway]
    rfl

end SourceFile

/-! ## Reports -/

namespace ApiContract

variable {own : String → Set String} {e : Engine} {run : RunContext} {file : String}

theorem findings_traceOf {ctx : FileContext} {tree : Tree}
    (hroot : tree.walk.filter (fun v => v.node.kind == programKind) = [⟨tree, []⟩]) :
    (traceOf [rule] ctx tree).flatMap Call.findings = (check ctx).map fun f => (rule, f) := by
  have hkind : tree.walk.filter (fun v => ["program"].contains v.node.kind) = [⟨tree, []⟩] := by
    rw [← hroot]
    refine List.filter_congr fun v _ => ?_
    rw [List.contains_cons, List.contains_nil, Bool.or_false]
    rfl
  have hfindings := Rule.findings_ofNodes info ["program"] (fun _ ctx => check ctx) ctx tree
  rw [hkind, List.flatMap_singleton] at hfindings
  exact hfindings

/-- Of a file with a tree the rule reports what its check finds. -/
theorem forall₂_found_of_tree [SourceReader] [SourceReader.HasOneRoot] (h : Independent own e.rules)
    (hrule : rule ∈ e.rules) {read : String → Except Fault String} {text : String} {d : Dialect}
    {tree : Tree} (hread : read (Path.below run.projectRoot file) = .ok text)
    (hparsed : readSource (Path.suffix (Path.below run.projectRoot file)) text = .ok (d, tree)) :
    List.Forall₂ (e.Reports file (Text.lines text))
      ((check (.inRun run file text)).map fun f => (rule, f))
      ((e.found read run file).filter fun v => v.rule == info.id) := by
  obtain ⟨report, hreport, hviolations⟩ :=
    Engine.exists_reportParsed h.declares (.inRun run file text) d tree
  have hfound : e.found read run file = report.violations := by
    refine Engine.found_of_report ?_
    rw [hread, Engine.report_of_readSource hparsed]
    exact hreport
  have hpicked := Engine.reports_picked (· == rule.info.id) hviolations
  have halone : (traceOf e.rules (.inRun run file text) tree).filter
      (fun c => c.rule.info.id == rule.info.id) = traceOf [rule] (.inRun run file text) tree :=
    traceFile_filter_id h hrule (.inRun run file text) (some tree)
  rw [halone, findings_traceOf (walk_of_readSource hparsed)] at hpicked
  rw [hfound]
  exact hpicked

theorem filter_found_of_no_tree [SourceReader] (h : Independent own e.rules)
    (hrule : rule ∈ e.rules) {read : String → Except Fault String}
    (htree : treeOf? (Path.below run.projectRoot file) (read (Path.below run.projectRoot file)) =
      none) :
    (e.found read run file).filter (fun v => v.rule == info.id) = [] := by
  obtain ⟨lead, text, tree?, htree?, hlead, -, hfound⟩ :=
    Engine.found_cases read run.projectRoot file
  obtain rfl : tree? = none := htree?.symm.trans htree
  obtain ⟨vs, hvs, hreports⟩ := hfound e run h.declares rfl
  have hnone : lead.filter (fun v => v.rule == info.id) = [] := by
    rw [List.filter_eq_nil_iff]
    intro v hv
    rw [(hlead v hv).rule_eq]
    decide
  have hpicked := Engine.reports_picked (· == rule.info.id) hreports
  rw [traceFile_filter_id h hrule] at hpicked
  rw [hvs, List.filter_append, hnone, List.nil_append]
  exact List.forall₂_nil_left_iff.1 hpicked

theorem check_ne_nil_iff {ctx : FileContext} : check ctx ≠ [] ↔
    FileKind.isApiModule ctx.relPath = true ∧ TextEvidence.contracts ctx.text = [] := by
  rw [check]
  by_cases h : (FileKind.isApiModule ctx.relPath && (TextEvidence.contracts ctx.text).isEmpty) = true
  · rw [if_pos h]
    simpa using h
  · rw [if_neg h]
    simpa using h

/-- The rule reports a file that looks like a module and has a tree and no contracts. -/
theorem exists_reported_iff [SourceReader] [SourceReader.HasOneRoot] (h : Independent own e.rules)
    (hrule : rule ∈ e.rules) (read : String → Except Fault String) :
    (∃ v ∈ e.found read run file, v.rule = info.id) ↔ FileKind.isApiModule file = true ∧
      ∃ text, read (Path.below run.projectRoot file) = .ok text ∧
        (treeOf? (Path.below run.projectRoot file) (.ok text)).isSome ∧
        TextEvidence.contracts text = [] := by
  have hsome : (∃ v ∈ e.found read run file, v.rule = info.id) ↔
      (e.found read run file).filter (fun v => v.rule == info.id) ≠ [] := by
    simp [List.filter_eq_nil_iff]
  rw [hsome]
  cases htree : treeOf? (Path.below run.projectRoot file)
    (read (Path.below run.projectRoot file)) with
  | none =>
    rw [filter_found_of_no_tree h hrule htree]
    refine iff_of_false (fun hne => hne rfl) ?_
    rintro ⟨-, text, hread, hparsed, -⟩
    rw [← hread, htree] at hparsed
    cases hparsed
  | some tree =>
    obtain ⟨text, d, hread, hparsed⟩ := treeOf?_eq_some_iff.1 htree
    have hreports := forall₂_found_of_tree h hrule hread hparsed
    have hempty : (e.found read run file).filter (fun v => v.rule == info.id) = [] ↔
        check (.inRun run file text) = [] := by
      have hlength := hreports.length_eq
      rw [List.length_map] at hlength
      rw [← List.length_eq_zero_iff, ← hlength, List.length_eq_zero_iff]
    rw [ne_eq, hempty, ← ne_eq, check_ne_nil_iff]
    refine and_congr_right fun _ => ?_
    constructor
    · intro hnone
      rw [hread] at htree
      exact ⟨text, hread, Option.isSome_of_eq_some htree, hnone⟩
    · rintro ⟨text', hread', -, hnone⟩
      obtain rfl : text = text' := Except.ok.inj (hread.symm.trans hread')
      exact hnone

end ApiContract

/-- A rule that is not switched off is among those of the engine. -/
theorem Config.rule_mem_engine {c : Config} {e : Engine} (he : c.engine = .ok e)
    (hon : (c.settings .apiContract).level? ≠ some .off) : ApiContract.rule ∈ e.rules := by
  obtain ⟨rules, hrules, heq⟩ := rules_of_engine he
  have hbuiltin : Builtin.apiContract ∈ rules.map ConfiguredRule.builtin := by
    rw [builtins_of_enabledRules hrules]
    exact List.mem_filter.2 ⟨by decide, bne_iff_ne.2 hon⟩
  obtain ⟨r, hr, hname⟩ := List.mem_map.1 hbuiltin
  have hrule : r.rule = ApiContract.rule := by
    cases r <;> first | rfl | cases hname
  rw [heq, ← hrule]
  exact List.mem_map_of_mem hr

/-- **Reports.** In a run over a project with a plain source root, the rule on contracts reports the
modules of the features and the lookalikes, where they have a tree and no contracts, and no other
file. -/
theorem ApiContract.modules_reported [SourceReader] [SourceReader.HasOneRoot] {d : Disk}
    {root : String} {c : Config} {clock : Clock} {files : List String} {results : Results}
    (hroot : Path.IsPlain c.sourceRoot) (hd : d.root.WellNamed)
    (hfiles : (Selection.discover d root c).value = .ok files)
    (hon : (c.settings .apiContract).level? ≠ some .off)
    (hresults : (analyze d root c .project clock).value = .ok results) :
    ∀ file ∈ files,
      (∀ slice, IsModuleOf c.sourceRoot slice file ↔
        Coordinate.ofPath? file c.sourceRoot = some ⟨.features, some slice⟩ ∧
          Path.directory file = c.sourceRoot ++ "/features/" ++ slice ∧
          Path.baseName file ∈ moduleNames) ∧
      (FileKind.isApiModule file = true ↔
        (∃ slice, IsModuleOf c.sourceRoot slice file) ∨ IsLookalike c.sourceRoot file) ∧
      (∀ slice, IsModuleOf c.sourceRoot slice file → ¬ IsLookalike c.sourceRoot file) ∧
      ((∃ v ∈ results.violations, v.file = file ∧ v.rule = info.id) ↔
        ((∃ slice, IsModuleOf c.sourceRoot slice file) ∨ IsLookalike c.sourceRoot file) ∧
          ∃ text, d.readText (Path.below root file) = .ok text ∧
            (treeOf? (Path.below root file) (.ok text)).isSome ∧
            TextEvidence.contracts text = []) := by
  obtain ⟨e, files', he, hfiles', hanalyzed⟩ := exists_of_analyze hresults
  obtain rfl : files = files' := Except.ok.inj (hfiles.symm.trans hfiles')
  have hrules := Config.independent_engine he
  have hrule := Config.rule_mem_engine he hon
  obtain ⟨results', hresults', hviolations⟩ :=
    analyzeFiles_eq hrules.declares d.readText d.view root c files clock
  obtain rfl : results = results' := Except.ok.inj (hanalyzed.symm.trans hresults')
  intro file hfile
  obtain ⟨s, hsource, rfl⟩ := Selection.exists_sourceFile hroot hd hfiles hfile
  rw [← hsource]
  refine ⟨fun slice => s.isModuleOf_iff, s.isApiModule_iff_or, fun slice => s.not_isLookalike, ?_⟩
  rw [← s.isApiModule_iff_or]
  have hown : (∃ v ∈ results.violations, v.file = s.path ∧ v.rule = info.id) ↔
      ∃ v ∈ e.found d.readText (c.runContext root files d.view) s.path, v.rule = info.id := by
    rw [hviolations]
    constructor
    · rintro ⟨v, hv, hpath, hid⟩
      obtain ⟨other, -, hv⟩ := List.mem_flatMap.1 hv
      rw [Engine.file_of_mem_found hrules.declares hv] at hpath
      subst hpath
      exact ⟨v, hv, hid⟩
    · rintro ⟨v, hv, hid⟩
      exact ⟨v, List.mem_flatMap.2 ⟨s.path, Text.mem_sorted.2 hfile, hv⟩,
        Engine.file_of_mem_found hrules.declares hv, hid⟩
  rw [hown]
  exact exists_reported_iff hrules hrule d.readText

/-- A disk with one empty file on it. -/
def Shop.single (names : List String) : Disk := ⟨Entry.chain [] names, "/"⟩

/-- The empty module of the cart has a tree and no contracts, so that it is reported. -/
theorem ApiContract.modules_reported_cart :
    ∃ results : Results,
      (analyze (Shop.single ["app", "features", "cart", "api.ts"]) "/" .standard .project
        ⟨default, default⟩).value = .ok results ∧
      FileKind.isApiModule "app/features/cart/api.ts" = true ∧
      ∃ v ∈ results.violations, v.file = "app/features/cart/api.ts" ∧ v.rule = info.id := by
  have hroot : Path.IsPlain Config.standard.sourceRoot :=
    ⟨["app"], by decide, by decide, rfl⟩
  have hd : (Shop.single ["app", "features", "cart", "api.ts"]).root.WellNamed :=
    Entry.wellNamed_chain [] (by decide)
  have hfiles : (Selection.discover (Shop.single ["app", "features", "cart", "api.ts"]) "/"
      .standard).value = .ok ["app/features/cart/api.ts"] := by decide +kernel
  obtain ⟨e, he⟩ : ∃ e, Config.standard.engine = .ok e := ⟨_, rfl⟩
  obtain ⟨results, hresults, -⟩ := analyzeFiles_eq (Config.independent_engine he).declares
    (Shop.single ["app", "features", "cart", "api.ts"]).readText
    (Shop.single ["app", "features", "cart", "api.ts"]).view "/" .standard
    ["app/features/cart/api.ts"] ⟨default, default⟩
  have hanalyzed : (analyze (Shop.single ["app", "features", "cart", "api.ts"]) "/" .standard
      .project ⟨default, default⟩).value = .ok results := by
    unfold analyze
    simp only [he, Scope.files, hfiles, hresults]
    rfl
  have hmodule : IsModuleOf "app" "cart" "app/features/cart/api.ts" :=
    ⟨by decide, "api.ts", by decide, rfl⟩
  obtain ⟨-, hlooks, -, hreported⟩ := modules_reported hroot hd hfiles (by decide) hanalyzed
    "app/features/cart/api.ts" (List.mem_singleton_self _)
  exact ⟨results, hanalyzed, hlooks.2 (.inl ⟨"cart", hmodule⟩),
    hreported.2 ⟨.inl ⟨"cart", hmodule⟩, "", by decide +kernel, by decide +kernel,
      by decide +kernel⟩⟩

/-- A file of a page is found, looks like a module and is reported. It is the module of no slice. -/
theorem ApiContract.lookalike_reported_page :
    (Selection.discover (Shop.single ["app", "pages", "features", "home", "api.ts"]) "/"
        .standard).value = .ok ["app/pages/features/home/api.ts"] ∧
      FileKind.isApiModule "app/pages/features/home/api.ts" = true ∧
      Coordinate.ofPath? "app/pages/features/home/api.ts" "app" =
        some ⟨.pages, some "features"⟩ ∧
      (∀ slice, ¬ IsModuleOf "app" slice "app/pages/features/home/api.ts") ∧
      (check (.inRun (Config.standard.runContext "/" ["app/pages/features/home/api.ts"]
          (Shop.single ["app", "pages", "features", "home", "api.ts"]).view)
        "app/pages/features/home/api.ts" "export const a = 1;\n")).map Finding.messageId =
          ["missingContracts"] := by
  refine ⟨by decide +kernel, by decide +kernel, by decide +kernel, ?_, by decide +kernel⟩
  rintro slice ⟨-, name, -, hpath⟩
  -- the layers differ in their first letter
  have hletter := congrArg (fun p : String => p.toList[4]?) hpath
  simp at hletter

end SliceLint
