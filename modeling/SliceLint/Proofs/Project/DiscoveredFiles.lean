import SliceLint.Proofs.Disk.Walk
import SliceLint.Proofs.Path.Extension
import SliceLint.Proofs.Project.Completion
import SliceLint.Proofs.Project.Selection

/-!
# Which files are discovered

**Discovery** (`discover_exact`). A run over a project is about the files under its source root that
no hidden folder keeps out of sight, that have the extension of a source file, and that are not left
out (`Selection.IsFound`). They are discovered in the order of their paths, each once, as far as the
folders on the way to them can be listed. The files in other folders are missed without a word, so
what is discovered is what the run is about exactly when there are none of these.

**Dialects** (`Selection.isSome_dialect_of_mem_sources`). The extension that a file is discovered by
is its suffix, which selects the dialect it is read in. So a discovered file without a tree has a
fault in its text, or cannot be read (`Engine.exists_head_found`), and no report tells that its
extension is not supported (`Engine.not_tellsUnsupported_of_mem_found`).
-/

namespace SliceLint

/-! ## Files without a tree -/

/-- A text that is read in some dialect has no tree where something in it is unexpected. -/
theorem exists_unexpected [SourceReader] {suffix text : String} {f : SourceFault}
    (hdialect : (Dialect.ofExtension? suffix).isSome) (h : readSource suffix text = .error f) :
    ∃ place, f = .unexpected place := by
  obtain ⟨dialect, hdialect⟩ := Option.isSome_iff_exists.1 hdialect
  simp only [readSource, hdialect] at h
  unfold Tree.sound at h
  split at h
  · cases h
    exact ⟨_, rfl⟩
  · cases h

/-- A message tells that some extension is not supported. -/
def TellsUnsupported (message : String) : Prop :=
  ∃ suffix, message = (SourceFault.unsupported suffix).message

theorem TellsUnsupported.head? {message : String} (h : TellsUnsupported message) :
    message.toList.head? = some 'U' := by
  unfold TellsUnsupported at h
  obtain ⟨suffix, hsuffix⟩ := h
  have hmessage : message = "Unsupported file extension: " ++ suffix := hsuffix
  have hunsupported : "Unsupported file extension: ".toList.head? = some 'U' := by decide
  rw [hmessage, String.toList_append, List.head?_append, hunsupported, Option.some_or]

theorem not_tellsUnsupported_fault (fault : String) :
    ¬ TellsUnsupported ("Cannot read file: " ++ fault) := by
  intro h
  have hcannot : "Cannot read file: ".toList.head? = some 'C' := by decide
  have hhead := h.head?
  rw [String.toList_append, List.head?_append, hcannot, Option.some_or] at hhead
  cases hhead

theorem not_tellsUnsupported_unexpected (place : Position) :
    ¬ TellsUnsupported (SourceFault.unexpected place).message := by
  intro h
  have hparsing : "Parsing error: unexpected syntax at ".toList.head? = some 'P' := by
    decide
  have hmessage : (SourceFault.unexpected place).message =
      "Parsing error: unexpected syntax at " ++ toString (place.row + 1) ++ ":" ++
        toString (place.column + 1) := rfl
  have hhead := h.head?
  rw [hmessage] at hhead
  simp only [String.toList_append, List.head?_append, hparsing, Option.some_or] at hhead
  cases hhead

namespace Engine

variable {e : Engine} {read : String → Except Fault String} {run : RunContext} {file : String}

/-- What is found first in a file without a tree tells why it cannot be read or parsed. -/
theorem exists_head_found [SourceReader] (hrules : ∀ r ∈ e.rules, r.Declares)
    (hnone : treeOf? (Path.below run.projectRoot file)
      (read (Path.below run.projectRoot file)) = none) :
    ∃ first rest, e.found read run file = first :: rest ∧
      ((∃ fault, first.message = "Cannot read file: " ++ fault) ∨
        ∃ text f, readSource (Path.suffix (Path.below run.projectRoot file)) text = .error f ∧
          first.message = f.message) := by
  have hreported : ∀ text first note,
      e.report (Path.below run.projectRoot file) file run (read (Path.below run.projectRoot file)) =
        e.reportUnparsed ⟨Path.below run.projectRoot file, file, text,
          Coordinate.ofPath? file run.sourceRoot, run⟩ first note →
      ∃ rest, e.found read run file = first :: rest := by
    intro text first note hreport
    obtain ⟨vs, log, hvs, -⟩ := exists_reportUnparsed hrules
      ⟨Path.below run.projectRoot file, file, text, Coordinate.ofPath? file run.sourceRoot, run⟩
      first note
    exact ⟨vs, found_of_report (hreport.trans hvs)⟩
  cases htext : read (Path.below run.projectRoot file) with
  | error f =>
    obtain ⟨rest, hrest⟩ := hreported ""
      (parseViolation file ("Cannot read file: " ++ f.text) 1 1 "") ("Cannot read file: " ++ file)
      (by rw [htext]; unfold report; simp only)
    exact ⟨_, rest, hrest, Or.inl ⟨f.text, rfl⟩⟩
  | ok text =>
    cases hread : readSource (Path.suffix (Path.below run.projectRoot file)) text with
    | error f =>
      obtain ⟨rest, hrest⟩ := hreported text
        (parseViolation file f.message f.line f.column text)
        ("Cannot parse " ++ file ++ ": " ++ f.message)
        (by rw [htext]; unfold report; simp only [hread])
      exact ⟨_, rest, hrest, Or.inr ⟨text, f, hread, rfl⟩⟩
    | ok read =>
      rw [htext, treeOf?, hread] at hnone
      cases hnone

theorem not_tellsUnsupported_of_mem_found [SourceReader] (hrules : ∀ r ∈ e.rules, r.Declares)
    (hids : ∀ r ∈ e.rules, r.info.id ≠ parseRule)
    (hdialect : (Dialect.ofExtension? (Path.suffix (Path.below run.projectRoot file))).isSome)
    {v : Violation} (hv : v ∈ e.found read run file) (hrule : v.rule = parseRule) :
    ¬ TellsUnsupported v.message := by
  have haccounts := accounts_found hrules hids read run file
  by_cases hnone : treeOf? (Path.below run.projectRoot file)
      (read (Path.below run.projectRoot file)) = none
  · obtain ⟨first, rest, hfound, -, hrest⟩ := haccounts.unparsed hnone
    obtain ⟨first', rest', hfound', hmessage⟩ := exists_head_found hrules hnone
    cases hfound.symm.trans hfound'
    rw [hfound, List.mem_cons] at hv
    have hfirst : v = first := hv.resolve_right fun hmem => (hrest v hmem).1 hrule
    rw [hfirst]
    rcases hmessage with ⟨fault, hmessage⟩ | ⟨text, f, hread, hmessage⟩
    · rw [hmessage]
      exact not_tellsUnsupported_fault fault
    · obtain ⟨place, rfl⟩ := exists_unexpected hdialect hread
      rw [hmessage]
      exact not_tellsUnsupported_unexpected place
  · exact absurd hrule (haccounts.parsed hnone v hv)

end Engine

/-! ## Discovery -/

namespace Selection

variable {d : Disk} {root : String} {c : Config} {folders : List String} {name : String}

/-- The path in the project of a file under the source root. -/
def pathUnder (c : Config) (folders : List String) (name : String) : String :=
  Path.spell "" (Path.spelledSegments c.sourceRoot ++ (folders ++ [name]))

/-- A file that a run over the project is about: it lies under the source root and below no hidden
folder, has the extension of a source file, and is not left out. -/
structure IsFound (d : Disk) (root : String) (c : Config) (folders : List String) (name : String) :
    Prop where
  lies : ∃ bytes, d.root.fileAt?
    (d.place (Path.below root c.sourceRoot) ++ (folders ++ [name])) = some bytes
  shown : ∀ folder ∈ folders, Entry.isHidden folder = false
  source : isSource (Path.extension name) = true
  included : isExcluded (pathUnder c folders name) c.exclude = false

/-- The source root can be listed, and so can each of the folders that lead down from it. -/
def IsListed (d : Disk) (root : String) (c : Config) (folders : List String) : Prop :=
  Entry.IsListed d.lists (Path.below root c.sourceRoot) folders

/-- The source files below a folder, each by the folders that lead to it and its name. -/
theorem mem_sources_iff {e : Entry} (hdistinct : e.HasDistinctNames) (hfolder : e.isFolder = true)
    {file : String} :
    file ∈ sources d root c.sourceRoot e ↔ ∃ folders name, file = pathUnder c folders name ∧
      (∃ bytes, e.fileAt? (folders ++ [name]) = some bytes) ∧
      (∀ folder ∈ folders, Entry.isHidden folder = false) ∧ IsListed d root c folders ∧
      isSource (Path.extension name) = true := by
  simp only [sources, List.mem_map, List.mem_filter, Entry.mem_walk_iff hdistinct hfolder]
  constructor
  · rintro ⟨names, ⟨⟨⟨bytes, hbytes⟩, hshown, hlisted⟩, hsource⟩, rfl⟩
    have hne : names ≠ [] := by
      rintro rfl
      cases e with
      | file bytes => cases hfolder
      | folder members => simp [Entry.fileAt?, Entry.at?] at hbytes
    obtain ⟨folders, name, rfl⟩ := (List.eq_nil_or_concat' names).resolve_left hne
    rw [List.dropLast_concat] at hshown hlisted
    rw [List.getLast?_concat, Option.getD_some] at hsource
    exact ⟨folders, name, rfl, ⟨bytes, hbytes⟩, hshown, hlisted, hsource⟩
  · rintro ⟨folders, name, rfl, hbytes, hshown, hlisted, hsource⟩
    refine ⟨folders ++ [name], ⟨⟨hbytes, ?_, ?_⟩, ?_⟩, rfl⟩
    · rwa [List.dropLast_concat]
    · rwa [List.dropLast_concat]
    · rwa [List.getLast?_concat, Option.getD_some]

theorem isSome_dialect_of_mem_sources {e : Entry} (hnamed : e.WellNamed) {file : String}
    (hfile : file ∈ sources d root c.sourceRoot e) :
    (Dialect.ofExtension? (Path.suffix (Path.below root file))).isSome := by
  obtain ⟨names, hmem, rfl⟩ := List.mem_map.1 hfile
  obtain ⟨hwalk, hsource⟩ := List.mem_filter.1 hmem
  have hnames := hnamed.isName_of_mem_walk hwalk
  obtain ⟨folders, name, rfl⟩ :=
    (List.eq_nil_or_concat' names).resolve_left (Entry.ne_nil_of_mem_walk hwalk)
  rw [List.getLast?_concat, Option.getD_some] at hsource
  have hkept := Path.isKept_below (p := c.sourceRoot) hnames
  have hlast : (Path.spelledSegments (Path.below root
      (Path.spell "" (Path.spelledSegments c.sourceRoot ++ (folders ++ [name]))))).getLast? =
      some name := by
    rw [Path.below_spell root hkept,
      Path.spelledSegments_spell_root (Path.isRoot_rootOf root) (List.forall_mem_append.2
        ⟨fun _ => Path.isKept_of_mem_spelledSegments, hkept⟩)]
    simp
  have hname := hnames name (List.mem_append_right _ (List.mem_singleton_self name))
  have hne : ∀ extension, isSource extension = false → Path.extension name ≠ extension := by
    rintro _ hnot rfl
    rw [hnot] at hsource
    cases hsource
  rw [Path.suffix_eq_extension hname hlast (hne "" (by decide)) (hne "." (by decide))]
  exact isSource_iff.1 hsource

theorem exists_discover_eq (hfolder : d.isFolder (Path.below root c.sourceRoot) = .ok true) :
    ∃ e, d.entry (Path.below root c.sourceRoot) = .ok e ∧ e.isFolder = true ∧
      (discover d root c).value = .ok (included c (sources d root c.sourceRoot e)) := by
  obtain ⟨e, hentry, he⟩ : ∃ e, d.entry (Path.below root c.sourceRoot) = .ok e ∧
      e.isFolder = true := by
    unfold Disk.isFolder Disk.holds at hfolder
    split at hfolder
    · exact ⟨_, ‹_›, Except.ok.inj hfolder⟩
    all_goals cases hfolder
  exact ⟨e, hentry, he, by simp only [discover, hfolder, hentry]⟩

/-- The files that are chosen below the source root are those that a run is about, in folders that
are listed. -/
theorem mem_included_iff {e : Entry} (hdistinct : e.HasDistinctNames) (hfolder : e.isFolder = true)
    (hentry : d.entry (Path.below root c.sourceRoot) = .ok e) {file : String} :
    file ∈ included c (sources d root c.sourceRoot e) ↔
      ∃ folders name, file = pathUnder c folders name ∧ IsFound d root c folders name ∧
        IsListed d root c folders := by
  have hbelow : ∀ names, d.root.fileAt? (d.place (Path.below root c.sourceRoot) ++ names) =
      e.fileAt? names := Entry.fileAt?_append (Disk.at?_of_entry hentry)
  rw [included, Text.mem_sorted, List.mem_filter, mem_sources_iff hdistinct hfolder]
  constructor
  · rintro ⟨⟨folders, name, rfl, hbytes, hshown, hlisted, hsource⟩, hincluded⟩
    exact ⟨folders, name, rfl, ⟨by rwa [hbelow], hshown, hsource, by simpa using hincluded⟩, hlisted⟩
  · rintro ⟨folders, name, rfl, ⟨hbytes, hshown, hsource, hincluded⟩, hlisted⟩
    rw [hbelow] at hbytes
    exact ⟨⟨folders, name, rfl, hbytes, hshown, hlisted, hsource⟩, by simpa using hincluded⟩

theorem IsFound.isName (hnamed : d.root.WellNamed) (h : IsFound d root c folders name) :
    ∀ seg ∈ folders ++ [name], Path.IsName seg := by
  obtain ⟨bytes, hbytes⟩ := h.lies
  exact fun seg hseg =>
    hnamed.isName_of_fileAt? hbytes seg (List.mem_append_right _ hseg)

section Missed

variable {files : List String}

/-- A file that the run is about is chosen where the folders on its way are listed. -/
theorem IsFound.mem_iff (h : IsFound d root c folders name) (hnamed : d.root.WellNamed)
    (hfiles : ∀ file, file ∈ files ↔ ∃ folders name, file = pathUnder c folders name ∧
      IsFound d root c folders name ∧ IsListed d root c folders) :
    pathUnder c folders name ∈ files ↔ IsListed d root c folders := by
  rw [hfiles]
  constructor
  · rintro ⟨folders', name', heq, hfound', hlisted⟩
    have hnames := names_eq_of_spell_eq (h.isName hnamed) (hfound'.isName hnamed) heq
    obtain ⟨rfl, -⟩ := List.append_inj' hnames rfl
    exact hlisted
  · exact fun hlisted => ⟨folders, name, rfl, h, hlisted⟩

/-- All files that the run is about are chosen exactly when none lies in a folder that cannot be
listed. -/
theorem mem_iff_isFound_iff (hnamed : d.root.WellNamed)
    (hfiles : ∀ file, file ∈ files ↔ ∃ folders name, file = pathUnder c folders name ∧
      IsFound d root c folders name ∧ IsListed d root c folders) :
    (∀ file, file ∈ files ↔ ∃ folders name, file = pathUnder c folders name ∧
        IsFound d root c folders name) ↔
      ∀ folders name, IsFound d root c folders name → IsListed d root c folders := by
  constructor
  · intro hall folders name hfound
    exact (hfound.mem_iff hnamed hfiles).1 ((hall _).2 ⟨folders, name, rfl, hfound⟩)
  · intro hlisted file
    constructor
    · intro hfile
      obtain ⟨folders, name, rfl, hfound, -⟩ := (hfiles file).1 hfile
      exact ⟨folders, name, rfl, hfound⟩
    · rintro ⟨folders, name, rfl, hfound⟩
      exact (hfound.mem_iff hnamed hfiles).2 (hlisted folders name hfound)

end Missed

end Selection

/-- No run tells that an extension is not supported where every file of its scope has a dialect. -/
theorem not_tellsUnsupported_of_analyze [SourceReader] {d : Disk} {root : String} {c : Config}
    {scope : Scope} {files : List String} {clock : Clock} {results : Results}
    (hfiles : (scope.files d root c).value = .ok files)
    (hdialect : ∀ file ∈ files,
      (Dialect.ofExtension? (Path.suffix (Path.below root file))).isSome)
    (hresults : (analyze d root c scope clock).value = .ok results) {v : Violation}
    (hv : v ∈ results.violations) (hrule : v.rule = parseRule) : ¬ TellsUnsupported v.message := by
  obtain ⟨e, files', he, hscope, hanalyzed⟩ := exists_of_analyze hresults
  cases hscope.symm.trans hfiles
  have hrules := (Config.independent_engine he).declares
  obtain ⟨results', hresults', hviolations⟩ :=
    analyzeFiles_eq hrules d.readText d.view root c files clock
  cases hresults'.symm.trans hanalyzed
  rw [hviolations] at hv
  obtain ⟨file, hfile, hv⟩ := List.mem_flatMap.1 hv
  refine Engine.not_tellsUnsupported_of_mem_found hrules (Config.ids_ne_parseRule he) ?_ hv hrule
  exact hdialect file (Text.mem_sorted.1 hfile)

/-- **Discovery.** Let the names of a disk lead down, no two in one folder be the same, and the source
root be a folder. Then the discovered files are in strictly increasing order, they are the files of
the source root that are not hidden, have the extension of a source file and are not left out, each
of them where the folders on its way can be listed, and the suffix of each selects a dialect. So
they are all files that the run is about exactly when none of these lies in a folder that cannot be
listed. In the results of a run over the project nothing tells that the extension of a file is not
supported. -/
theorem discover_exact [SourceReader] {d : Disk} {root : String} {c : Config}
    (hnamed : d.root.WellNamed) (hdistinct : d.root.HasDistinctNames)
    (hfolder : d.isFolder (Path.below root c.sourceRoot) = .ok true) :
    ∃ files, (Selection.discover d root c).value = .ok files ∧ files.Pairwise (· < ·) ∧
      (∀ file, file ∈ files ↔ ∃ folders name, file = Selection.pathUnder c folders name ∧
        Selection.IsFound d root c folders name ∧ Selection.IsListed d root c folders) ∧
      ((∀ file, file ∈ files ↔ ∃ folders name, file = Selection.pathUnder c folders name ∧
          Selection.IsFound d root c folders name) ↔
        ∀ folders name, Selection.IsFound d root c folders name →
          Selection.IsListed d root c folders) ∧
      (∀ file ∈ files, (Dialect.ofExtension? (Path.suffix (Path.below root file))).isSome) ∧
      ∀ clock results, (analyze d root c .project clock).value = .ok results →
        ∀ v ∈ results.violations, v.rule = parseRule →
          ¬ TellsUnsupported v.message := by
  obtain ⟨e, hentry, he, hfiles⟩ := Selection.exists_discover_eq hfolder
  have hdialect : ∀ file ∈ Selection.included c (Selection.sources d root c.sourceRoot e),
      (Dialect.ofExtension? (Path.suffix (Path.below root file))).isSome := fun file hfile =>
    Selection.isSome_dialect_of_mem_sources (Disk.wellNamed_entry hnamed hentry)
      (List.mem_filter.1 (Text.mem_sorted.1 hfile)).1
  have hmem : ∀ file, file ∈ Selection.included c (Selection.sources d root c.sourceRoot e) ↔ _ :=
    fun file => Selection.mem_included_iff
      (Disk.entry_hereditary Entry.hereditary_hasDistinctNames hdistinct hentry) he hentry
  refine ⟨_, hfiles, Selection.pairwise_discover hnamed hdistinct hfiles, hmem,
    Selection.mem_iff_isFound_iff hnamed hmem, hdialect, fun clock results hresults v hv hrule => ?_⟩
  have hscope : (Scope.project.files d root c).value =
      .ok (Selection.included c (Selection.sources d root c.sourceRoot e)) := hfiles
  exact not_tellsUnsupported_of_analyze hscope hdialect hresults hv hrule

/-- The file in the cart of the shop is discovered: it lies under the source root, and its suffix
selects a dialect. -/
theorem discover_exact_shop :
    (Selection.discover Shop.disk "/" .standard).value = .ok ["app/features/cart/list.ts"] ∧
      (∃ folders name, "app/features/cart/list.ts" = Selection.pathUnder .standard folders name ∧
        Selection.IsFound Shop.disk "/" .standard folders name ∧
        Selection.IsListed Shop.disk "/" .standard folders) ∧
      (Dialect.ofExtension?
        (Path.suffix (Path.below "/" "app/features/cart/list.ts"))).isSome := by
  have hfiles : (Selection.discover Shop.disk "/" .standard).value =
      .ok ["app/features/cart/list.ts"] := by decide +kernel
  have hfolder : Shop.disk.isFolder (Path.below "/" Config.standard.sourceRoot) = .ok true := by
    decide +kernel
  obtain ⟨files, hdiscover, -, hfound, -, hdialect, -⟩ :=
    discover_exact Shop.wellNamed_disk Shop.hasDistinctNames_disk hfolder
  cases hdiscover.symm.trans hfiles
  exact ⟨hfiles, (hfound _).1 (List.mem_singleton_self _), hdialect _ (List.mem_singleton_self _)⟩

/-! ## A folder with too long a path -/

namespace Shop

/-- A name of 250 letters. -/
def long : String := String.ofList (List.replicate 250 'a')

/-- A shop with a file below two folders with long names. -/
def deep : Disk where
  root := .folder [("app", Entry.chain [] [long, long, "list.ts"]), (long, .folder [])]
  here := "/"

/-- A way to the sources that leads so often into a folder with a long name and back. -/
def detour : Nat → String
  | 0 => "app"
  | n + 1 => long ++ "/" ++ (".." ++ "/" ++ detour n)

/-- A configuration with such a source root that leaves no file out. -/
def detoured (n : Nat) : Value :=
  .mapping [(.text "source_root", .text (detour n)), (.text "exclude", .list [])]

theorem isName_long : Path.IsName long := isName_letters (by decide)

theorem head?_long : long.toList.head? = some 'a' := head?_letters 249

theorem isHidden_long : Entry.isHidden long = false := by
  rw [Entry.isHidden, String.startsWith_string_eq_false_iff]
  rintro ⟨rest, hrest⟩
  have hhead := congrArg List.head? hrest
  rw [head?_long] at hhead
  simp at hhead

theorem size_long : long.utf8ByteSize = 250 := by decide +kernel

theorem long_ne_app : long ≠ "app" := by
  intro h
  have hsize := congrArg String.utf8ByteSize h
  rw [size_long] at hsize
  exact absurd hsize (by decide)

theorem mem_deep {name : String} {e : Entry}
    (h : (name, e) ∈ [("app", Entry.chain [] [long, long, "list.ts"]), (long, .folder [])]) :
    (name = "app" ∧ e = Entry.chain [] [long, long, "list.ts"]) ∨
      (name = long ∧ e = .folder []) := by
  simpa only [List.mem_cons, Prod.mk.injEq, List.not_mem_nil, or_false] using h

theorem wellNamed_deep : deep.root.WellNamed := by
  have hnames : ∀ name ∈ [long, long, "list.ts"], Path.IsName name :=
    List.forall_mem_cons.2 ⟨isName_long, List.forall_mem_cons.2
      ⟨isName_long, List.forall_mem_singleton.2 (by decide)⟩⟩
  refine .folder (fun name e hmem => ?_) fun name e hmem => ?_
  · rcases mem_deep hmem with ⟨rfl, -⟩ | ⟨rfl, -⟩
    · decide
    · exact isName_long
  · rcases mem_deep hmem with ⟨-, rfl⟩ | ⟨-, rfl⟩
    · exact Entry.wellNamed_chain [] hnames
    · exact .folder nofun nofun

theorem hasDistinctNames_deep : deep.root.HasDistinctNames := by
  have hdistinct : ["app", long].Nodup :=
    List.nodup_cons.2 ⟨by simpa using long_ne_app.symm, List.nodup_singleton long⟩
  refine .folder hdistinct fun name e hmem => ?_
  rcases mem_deep hmem with ⟨-, rfl⟩ | ⟨-, rfl⟩
  · exact Entry.hasDistinctNames_chain [] _
  · exact .folder List.nodup_nil nofun

theorem pieces_detour (n : Nat) :
    Path.pieces (detour (n + 1)) = long :: ".." :: Path.pieces (detour n) := by
  have hdots : Path.pieces ".." = [".."] := by decide
  rw [detour, Path.pieces_append_slash, Path.pieces_append_slash, isName_long.pieces_eq, hdots]
  rfl

theorem isKept_of_mem_detour {n : Nat} : ∀ seg ∈ Path.pieces (detour n), Path.IsKept seg := by
  induction n with
  | zero =>
    have happ : Path.IsName "app" := by decide
    rw [detour, happ.pieces_eq]
    exact List.forall_mem_singleton.2 happ.isKept
  | succ n ih =>
    have hdots : Path.IsKept ".." := ⟨by decide, by decide, by decide⟩
    rw [pieces_detour]
    exact List.forall_mem_cons.2 ⟨isName_long.isKept, List.forall_mem_cons.2 ⟨hdots, ih⟩⟩

theorem below_detour (n : Nat) : Path.below "/" (detour n) = "/" ++ detour n := by
  have hspelled : Path.spelledSegments (detour n) = Path.pieces (detour n) := by
    have hjoin := Path.spelledSegments_join (isKept_of_mem_detour (n := n))
    rwa [Path.join_pieces] at hjoin
  have habsolute : Path.isAbsolute (detour n) = false := by
    have hjoin := Path.isAbsolute_join (isKept_of_mem_detour (n := n))
    rwa [Path.join_pieces] at hjoin
  have hbase : Path.rootOf "/" = "/" ∧ Path.spelledSegments "/" = [] := by decide
  have hroot : ("/" == "") = false := by decide
  rw [Path.below, habsolute, if_neg Bool.false_ne_true, hbase.1, hbase.2, hspelled, Path.spell,
    hroot, Bool.false_and, if_neg Bool.false_ne_true, List.nil_append, Path.join_pieces]

theorem size_detour (n : Nat) : ("/" ++ detour n).utf8ByteSize = 254 * n + 4 := by
  have hsize : "/".utf8ByteSize = 1 ∧ "..".utf8ByteSize = 2 := by decide
  rw [String.utf8ByteSize_append, hsize.1]
  induction n with
  | zero => decide
  | succ n ih =>
    simp only [detour, String.utf8ByteSize_append, size_long, hsize]
    omega

theorem hasNull_detour (n : Nat) : Path.hasNull ("/" ++ detour n) = false := by
  have hnull : ∀ p, Path.hasNull p = false ↔ '\x00' ∉ p.toList := fun p => by simp [Path.hasNull]
  have hlong := (hnull long).1 (hasNull_letters 250)
  have hdetour : '\x00' ∉ (detour n).toList := by
    induction n with
    | zero => decide
    | succ n ih => simp [detour, ih, hlong]
  rw [hnull]
  simpa using hdetour

theorem trim_detour (n : Nat) : Text.trim '/' (detour n) = detour n := by
  have hends : (detour n).toList.head? = some 'a' ∧ (detour n).toList.getLast? = some 'p' := by
    induction n with
    | zero => decide
    | succ n ih =>
      refine ⟨by simp [detour, head?_long], ?_⟩
      rw [detour, String.toList_append, String.toList_append, String.toList_append,
        List.getLast?_append, List.getLast?_append, ih.2]
      rfl
  exact Text.trim_of_ends (by rw [hends.1]; decide) (by rw [hends.2]; decide)

theorem descend_detour (n : Nat) :
    Disk.descend [] deep.root (Path.pieces (detour n)) =
      .ok (Entry.chain [] [long, long, "list.ts"]) := by
  induction n with
  | zero =>
    have happ : Path.IsName "app" := by decide
    rw [detour, happ.pieces_eq, Disk.descend_name happ]
    rfl
  | succ n ih =>
    have hmember : Disk.member long deep.root = .ok (.folder []) := by
      refine Disk.member_eq_ok_iff.2 ⟨by rw [size_long]; decide, ?_⟩
      have hlookup : [("app", Entry.chain [] [long, long, "list.ts"]),
          (long, Entry.folder [])].lookup long = some (.folder []) := by
        rw [Entry.lookup_cons_eq_ite, if_neg long_ne_app, List.lookup_cons_self]
      exact hlookup
    rw [pieces_detour, Disk.descend_cons, Disk.step,
      if_neg (not_or.2 ⟨isName_long.ne_empty, isName_long.ne_dot⟩), if_neg isName_long.ne_dots,
      hmember, ← ih]
    rfl

theorem entry_detour {n : Nat} (h : n < 16) :
    deep.entry (Path.below "/" (detour n)) =
      .ok (Entry.chain [] [long, long, "list.ts"]) := by
  have hpieces : Path.pieces ("/" ++ detour n) = "" :: Path.pieces (detour n) :=
    Path.pieces_append_slash "" (detour n)
  have habsolute : Path.isAbsolute ("/" ++ detour n) = true := by
    rw [Path.isAbsolute, String.startsWith_string_iff]
    exact ⟨(detour n).toList, by simp⟩
  have hlength : ("/" ++ detour n).utf8ByteSize < Disk.pathLimit := by
    rw [size_detour, Disk.pathLimit]
    omega
  rw [below_detour, Disk.entry_eq_descend (by simp) (hasNull_detour n) hlength, Disk.absolute,
    Path.under, if_pos habsolute, hpieces]
  exact descend_detour n

/-- What such a configuration says. -/
def roundabout (n : Nat) : Config :=
  { Config.standard with
    sourceRoot := detour n, aliases := Config.standardAliases (detour n), exclude := [] }

theorem ofValue_detoured (n : Nat) : Config.ofValue (detoured n) = .ok (roundabout n) := by
  have hfind : Value.find? [(.text "source_root", .text (detour n)), (.text "exclude", .list [])]
      "source_root" = some (.text (detour n)) := rfl
  have hne : (detour n == "") = false := by
    rw [beq_eq_false_iff_ne]
    cases n <;> simp [detour]
  have hroot : Config.readSourceRoot (some (.text (detour n))) = .ok (detour n) := by
    simp [Config.readSourceRoot, Value.plain, trim_detour, hne]
  simp only [Config.ofValue, detoured, hfind, hroot]
  rfl

theorem isFound_deep {n : Nat} (h : n < 16) :
    Selection.IsFound deep "/" (roundabout n) [long, long] "list.ts" where
  lies := by
    have hroot : (roundabout n).sourceRoot = detour n := rfl
    refine ⟨[], ?_⟩
    rw [hroot, Entry.fileAt?_append (Disk.at?_of_entry (entry_detour h))]
    simp only [Entry.chain, List.cons_append, List.nil_append, Entry.fileAt?_folder_cons,
      List.lookup_cons_self, Option.bind_some, Entry.fileAt?_file, if_true]
  shown := List.forall_mem_cons.2 ⟨isHidden_long, List.forall_mem_singleton.2 isHidden_long⟩
  source := by decide
  included := rfl

theorem not_isListed_deep {n : Nat} (h : 14 < n) :
    ¬ Selection.IsListed deep "/" (roundabout n) [long, long] := by
  intro hlisted
  have hroot : (roundabout n).sourceRoot = detour n := rfl
  have hlists := hlisted [long, long] List.prefix_rfl
  rw [hroot, List.foldl_cons, List.foldl_cons, List.foldl_nil] at hlists
  have hfirst := Path.size_under (Path.below "/" (detour n)) isName_long
  have hsecond := Path.size_under (Path.under (Path.below "/" (detour n)) long) isName_long
  rw [below_detour, size_detour, size_long] at hfirst
  rw [size_long] at hsecond
  have hlong : Disk.pathLimit ≤
      (Path.under (Path.under (Path.below "/" (detour n)) long) long).utf8ByteSize := by
    rw [below_detour] at hsecond ⊢
    rw [Disk.pathLimit]
    omega
  rw [Disk.lists_of_long hlong] at hlists
  cases hlists

/-- The file is missed where its folder has too long a path. -/
theorem discover_deep {n : Nat} (hmany : 14 < n) (hfew : n < 16) :
    deep.isFolder (Path.below "/" (roundabout n).sourceRoot) = .ok true ∧
      ∃ files, (Selection.discover deep "/" (roundabout n)).value = .ok files ∧
        Selection.pathUnder (roundabout n) [long, long] "list.ts" ∉ files := by
  have hfolder : deep.isFolder (Path.below "/" (roundabout n).sourceRoot) = .ok true := by
    rw [Disk.isFolder, Disk.holds, roundabout, entry_detour hfew]
    rfl
  obtain ⟨e, hentry, he, hfiles⟩ := Selection.exists_discover_eq hfolder
  refine ⟨hfolder, _, hfiles, ?_⟩
  rw [(isFound_deep hfew).mem_iff wellNamed_deep fun file => Selection.mem_included_iff
    (Disk.entry_hereditary Entry.hereditary_hasDistinctNames hasDistinctNames_deep hentry) he hentry]
  exact not_isListed_deep hmany

end Shop

/-- A file is missed without a word: it lies in a folder whose path has too many bytes, because the
source root is spelled with detours. -/
theorem discover_misses_deep :
    ∃ c files, Config.ofValue (Shop.detoured 15) = .ok c ∧
      Shop.deep.root.WellNamed ∧ Shop.deep.root.HasDistinctNames ∧
      Shop.deep.isFolder (Path.below "/" c.sourceRoot) = .ok true ∧
      (Selection.discover Shop.deep "/" c).value = .ok files ∧
      Selection.IsFound Shop.deep "/" c [Shop.long, Shop.long] "list.ts" ∧
      Selection.pathUnder c [Shop.long, Shop.long] "list.ts" ∉ files := by
  obtain ⟨hfolder, files, hfiles, hmissed⟩ := Shop.discover_deep (n := 15) (by decide) (by decide)
  exact ⟨Shop.roundabout 15, files, Shop.ofValue_detoured 15, Shop.wellNamed_deep,
    Shop.hasDistinctNames_deep, hfolder, hfiles, Shop.isFound_deep (by decide), hmissed⟩

end SliceLint
