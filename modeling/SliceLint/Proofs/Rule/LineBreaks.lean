import SliceLint.Disk.Basic
import SliceLint.Proofs.Engine.Failure
import SliceLint.Proofs.Path.Name
import SliceLint.Proofs.Rule.Builtin
import SliceLint.Proofs.Rule.ServiceName
import SliceLint.Proofs.Text.OneLine

/-!
# Newlines in messages

The messages of the built-in rules are of one line by themselves. What can break them is what they
show. Most of it is of one line as well: names of layers, numbers, hooks that a name suggests, the
names of files. A few data are shown as they come, from the source text of a file or from an option
(`quotedData`).

**Rules** (`ConfiguredRule.keepsLines`). In a file whose own names are of one line, a rule finds
nothing with a newline in it but quoted data, and when it fails it tells why in one line, because
paths are put in quotes there.

**Messages** (`Engine.oneLine_iff`). So the message of a violation is of one line exactly when no
newline is among the data that it quotes.
-/

namespace SliceLint

/-! ## Quoted data -/

/-- The data that messages show as they come, each by the message and its own name: values of
properties, slices and names that are imported, and files that an option asks for. -/
def quotedData : List (String × String) :=
  StyleValue.Family.all.map (fun family => (family.messageId, "value")) ++
    [("crossSliceImport", "toSlice"), ("directServiceImport", "service"),
      ("directClientImport", "client"), ("missingBaseline", "filename")]

/-- There is a newline in a datum that the message shows as it comes. -/
def QuotesBreak (messageId : String) (data : Data) : Prop :=
  ∃ name text, (messageId, name) ∈ quotedData ∧ data.lookup name = some (.text text) ∧
    ¬ OneLine text

/-- Besides quoted data, all that the message of the finding shows is of one line. -/
def RuleInfo.KeepsLine (info : RuleInfo) (f : Finding) : Prop :=
  ∀ t, info.messages.lookup f.messageId = some t → ∀ name ∈ t.gaps,
    (f.messageId, name) ∉ quotedData → ∀ d, f.data.lookup name = some d → OneLine d.shown

namespace RuleInfo

variable {info : RuleInfo} {f : Finding}

theorem keepsLine_of_data
    (h : f.data.Forall fun datum =>
      (f.messageId, datum.1) ∈ quotedData ∨ OneLine datum.2.shown) : info.KeepsLine f := by
  intro t _ name _ hquoted d hd
  obtain ⟨front, back, hdata, -⟩ := List.lookup_eq_some_iff.1 hd
  have hdatum : (name, d) ∈ f.data := by
    rw [hdata]
    exact List.mem_append_right _ List.mem_cons_self
  exact (List.forall_iff_forall_mem.1 h (name, d) hdatum).resolve_left hquoted

theorem keepsLine_of_gaps
    (h : (info.messages.lookup f.messageId).map Template.gaps = some []) : info.KeepsLine f := by
  intro t ht name hname
  rw [ht] at h
  rw [Option.some.inj h] at hname
  exact absurd hname List.not_mem_nil

/-- What is only found on a condition keeps its line when it does so without the condition. -/
theorem keepsLine_of_mem_ite {p : Prop} [Decidable p] {found : Finding}
    (h : f ∈ if p then [found] else []) (hfound : info.KeepsLine found) : info.KeepsLine f := by
  simp only [List.mem_ite_nil_right, List.mem_singleton] at h
  rwa [h.2]

end RuleInfo

/-! ## Templates -/

namespace Template

/-- The stretches of text. -/
def texts (t : Template) : List String :=
  t.filterMap fun
    | .text s => some s
    | .gap _ => none

theorem oneLine_stringJoin {parts : List String} :
    OneLine (String.join parts) ↔ ∀ part ∈ parts, OneLine part := by
  induction parts with
  | nil => simp [OneLine]
  | cons part parts ih => rw [String.join_cons, oneLine_append, ih, List.forall_mem_cons]

/-- Where its stretches of text are of one line, a template is filled with one line exactly when
every gap is. -/
theorem oneLine_of_fill {t : Template} {data : Data} {message : String}
    (h : t.fill data = .ok message) (htexts : ∀ s ∈ t.texts, OneLine s) :
    OneLine message ↔ ∀ name ∈ t.gaps, ∀ d, data.lookup name = some d → OneLine d.shown := by
  obtain ⟨parts, hparts, rfl⟩ := map_eq_ok h
  rw [oneLine_stringJoin]
  have hpieces := mapM_eq_ok_iff.1 hparts
  clear h hparts
  induction hpieces with
  | nil => simp [gaps]
  | @cons piece part t parts hpiece _ ih =>
    cases piece with
    | text s =>
      have hcons : texts (.text s :: t) = s :: texts t := rfl
      rw [hcons, List.forall_mem_cons] at htexts
      obtain ⟨hs, hrest⟩ := htexts
      cases hpiece
      rw [List.forall_mem_cons, and_iff_right hs]
      exact ih hrest
    | gap name =>
      have hgaps : gaps (.gap name :: t) = name :: gaps t := rfl
      rw [hgaps, List.forall_mem_cons, List.forall_mem_cons]
      refine and_congr ?_ (ih htexts)
      unfold Piece.fill at hpiece
      cases hd : data.lookup name with
      | none =>
        simp only [hd] at hpiece
        cases hpiece
      | some d =>
        simp only [hd] at hpiece
        cases hpiece
        simp

end Template

theorem ConfiguredRule.rule_info (r : ConfiguredRule) : r.rule.info = r.builtin.info := by
  cases r <;> rfl

/-- The messages of the built-in rules are of one line by themselves, and show what they quote. -/
theorem Builtin.messages_oneLine (b : Builtin) :
    ∀ m ∈ b.info.messages, (∀ s ∈ Template.texts m.2, OneLine s) ∧
      ∀ datum ∈ quotedData, datum.1 = m.1 → datum.2 ∈ Template.gaps m.2 := by
  cases b <;> decide +kernel

/-! ## What files are called -/

/-- Why something failed is told in one line. -/
structure Fault.TellsOneLine (f : Fault) : Prop where
  kind : OneLine f.kind
  text : OneLine f.text

/-- Why the disk gives no answer is told in one line. -/
structure FileView.TellsOneLine (view : FileView) : Prop where
  isFile : ∀ {path fault}, view.isFile path = .error fault → fault.TellsOneLine
  readText : ∀ {path fault}, view.readText path = .error fault → fault.TellsOneLine

theorem DiskFault.tellsOneLine_onPath (f : DiskFault) (path : String) :
    (f.onPath path).TellsOneLine where
  kind := by
    have hkind : (f.onPath path).kind = f.kind := by cases f <;> rfl
    rw [hkind]
    cases f <;> decide
  text := by
    have hwording : OneLine f.wording := by cases f <;> decide
    cases f with
    | nullCharacter => exact hwording
    | _ => exact oneLine_append.2 ⟨hwording, oneLine_quoted path⟩

theorem Disk.tellsOneLine_readText {d : Disk} {path : String} {fault : Fault}
    (h : d.readText path = .error fault) : fault.TellsOneLine := by
  unfold readText at h
  split at h
  · rename_i f _
    cases h
    exact f.tellsOneLine_onPath path
  · split at h
    · cases h
    · rename_i f _
      cases h
      exact ⟨show OneLine "UnicodeDecodeError" by decide, oneLine_utf8Fault f⟩

theorem Disk.tellsOneLine_view (d : Disk) : d.view.TellsOneLine where
  isFile := by
    intro path fault h
    obtain ⟨f, rfl⟩ : ∃ f : DiskFault, fault = f.onPath path := by
      have hholds : d.holds path (fun e => !e.isFolder) = .error fault := h
      unfold holds at hholds
      split at hholds
      · cases hholds
      · cases hholds
      · cases hholds
      · rename_i f _ _ _
        cases hholds
        exact ⟨f, rfl⟩
    exact f.tellsOneLine_onPath path
  readText := Disk.tellsOneLine_readText

/-- The names that a rule takes from a file are of one line. -/
structure FileContext.NamesOneLine (ctx : FileContext) : Prop where
  name : Path.extension ctx.relPath ≠ "" → OneLine (Path.name ctx.path)
  slice : ∀ {c slice}, ctx.coordinate = some c → c.slice = some slice → OneLine slice
  view : ctx.run.view.TellsOneLine

/-! ## Rules -/

/-- In the file, all that the rule finds keeps its line, and so does what it fails with. -/
structure Rule.KeepsLines (r : Rule) (ctx : FileContext) : Prop where
  finds : ∀ {o s fs}, (r.respond o ctx s).1 = .ok fs → ∀ f ∈ fs, r.info.KeepsLine f
  fails : ∀ {o s fault}, (r.respond o ctx s).1 = .error fault → fault.TellsOneLine

/-- A rule that looks at nodes does not fail. -/
theorem Rule.keepsLines_ofNodes {info : RuleInfo} {kinds : List String}
    {look : Visit → FileContext → List Finding} {ctx : FileContext}
    (h : ∀ v, ∀ f ∈ look v ctx, info.KeepsLine f) :
    (Rule.ofNodes info kinds look).KeepsLines ctx where
  finds := by
    intro o s fs hfs f hf
    cases o with
    | node v =>
      cases hfs
      exact h v f hf
    | exit | unparsed =>
      cases hfs
      exact absurd hf List.not_mem_nil
  fails := by
    intro o s fault hfault
    cases o <;> cases hfault

theorem LiteralStyle.keepsLine_checkStyle {style : Tree} {f : Finding}
    (h : f ∈ LiteralStyle.checkStyle style) : LiteralStyle.info.KeepsLine f := by
  obtain ⟨member, -, hf⟩ := List.mem_flatMap.1 h
  unfold LiteralStyle.checkMember at hf
  split at hf
  · exact absurd hf List.not_mem_nil
  · obtain ⟨family, -, rfl⟩ := List.mem_map.1 hf
    have hquoted : (family.messageId, "value") ∈ quotedData := by cases family <;> decide
    exact RuleInfo.keepsLine_of_data (Or.inl hquoted)

/-- A colour goes on in the next line of the source, and is quoted with the newline in it. -/
example :
    (LiteralStyle.checkMember (.branch "pair" "" .origin
      [(Tree.leaf "property_identifier" true "color" .origin).inRole "key",
        (Tree.leaf "string" true "'#fff\\\n000'" .origin).inRole "value"])).map
      (fun f => (f.messageId, f.data)) =
    [("literalColor", [("value", .text "#fff\\\n000")])] := by
  decide +kernel

namespace LayerBoundary

theorem oneLine_name (l : Layer) : OneLine l.name := by cases l <;> decide

theorem importer_eq {statement : Tree} {ctx : FileContext} {i : Import}
    (h : import? statement ctx = some i) : ctx.coordinate = some i.importer := by
  obtain ⟨importer, himporter, h⟩ := Option.bind_eq_some_iff.1 h
  obtain ⟨source, -, h⟩ := Option.bind_eq_some_iff.1 h
  obtain ⟨path, -, h⟩ := Option.bind_eq_some_iff.1 h
  obtain ⟨target, -, h⟩ := Option.bind_eq_some_iff.1 h
  cases h
  exact himporter

theorem keepsLine_checkDirection {hierarchy : Hierarchy} {i : Import} {f : Finding}
    (h : f ∈ checkDirection hierarchy i) : info.KeepsLine f := by
  have hnames : ∀ name ∈ (hierarchy.targets i.importer.layer).map Layer.name, OneLine name := by
    intro name hname
    obtain ⟨l, -, rfl⟩ := List.mem_map.1 hname
    exact oneLine_name l
  have hallowed : OneLine (Text.join ", " _) := oneLine_join (by decide) hnames
  refine RuleInfo.keepsLine_of_mem_ite h (RuleInfo.keepsLine_of_data
    ⟨Or.inr (oneLine_name _), Or.inr (oneLine_name _), Or.inr ?_⟩)
  simp only [Datum.shown]
  split
  · decide
  · exact hallowed

/-- The slice that a file belongs to is of one line; the slice that it imports from is quoted. -/
theorem keepsLine_checkSlices {i : Import} {f : Finding}
    (hown : ∀ slice, i.importer.slice = some slice → OneLine slice) (h : f ∈ checkSlices i) :
    info.KeepsLine f := by
  unfold checkSlices at h
  split at h
  · rename_i own other hslice _
    have hquoted : ("crossSliceImport", "toSlice") ∈ quotedData := by decide
    exact RuleInfo.keepsLine_of_mem_ite h (RuleInfo.keepsLine_of_data
      ⟨Or.inr (hown own hslice), Or.inl hquoted, Or.inr (oneLine_name _)⟩)
  · exact absurd h List.not_mem_nil

theorem keepsLine_check {statement : Tree} {ctx : FileContext} {f : Finding}
    (hctx : ctx.NamesOneLine) (h : f ∈ check statement ctx) : info.KeepsLine f := by
  unfold check at h
  split at h
  · exact absurd h List.not_mem_nil
  · rename_i i himport
    simp only [List.mem_append] at h
    rcases h with (((h | h) | h) | h) | h
    · exact RuleInfo.keepsLine_of_mem_ite h (RuleInfo.keepsLine_of_gaps rfl)
    · exact keepsLine_checkDirection h
    · exact keepsLine_checkSlices (fun slice => hctx.slice (importer_eq himport)) h
    · exact RuleInfo.keepsLine_of_mem_ite h (RuleInfo.keepsLine_of_gaps rfl)
    · exact RuleInfo.keepsLine_of_mem_ite h (RuleInfo.keepsLine_of_gaps rfl)

end LayerBoundary

namespace ServiceName

theorem Unbroken.newline_notMem {cs : List Char} (h : Unbroken cs) : '\n' ∉ cs :=
  fun hmem => absurd (h '\n' hmem) (by decide)

theorem unbroken_spellService {cs : List Char} (h : Unbroken cs) :
    Unbroken (spellService cs) := by
  have hword : "Service".toList.all (fun c => isSeparator c == false) = true := by decide
  unfold spellService
  split
  · refine List.forall_mem_append.2 ⟨fun c hc => h c (List.mem_of_mem_take hc), fun c hc => ?_⟩
    exact beq_iff_eq.1 (List.all_eq_true.1 hword c hc)
  · exact h

theorem oneLine_accessor (name : String) : OneLine (accessor name) := by
  rw [accessor, oneLine_ofList, List.mem_append, not_or]
  exact ⟨by decide, (unbroken_capitalize
    (unbroken_spellService (unbroken_camelCaseList name.toList))).newline_notMem⟩

end ServiceName

namespace ServiceImport

theorem keepsLine_check {statement : Tree} {ctx : FileContext} {f : Finding}
    (h : f ∈ check statement ctx) : info.KeepsLine f := by
  unfold check at h
  split at h
  · exact absurd h List.not_mem_nil
  · simp only [List.mem_append] at h
    rcases h with (h | h) | h
    · exact RuleInfo.keepsLine_of_mem_ite h (RuleInfo.keepsLine_of_gaps rfl)
    · unfold checkService at h
      split at h
      · exact absurd h List.not_mem_nil
      · rename_i name _
        rw [List.mem_singleton.1 h]
        have hquoted : ("directServiceImport", "service") ∈ quotedData := by decide
        exact RuleInfo.keepsLine_of_data
          ⟨Or.inl hquoted, Or.inr (ServiceName.oneLine_accessor name)⟩
    · unfold checkClient at h
      split at h
      · exact absurd h List.not_mem_nil
      · rename_i name _
        rw [List.mem_singleton.1 h]
        have hquoted : ("directClientImport", "client") ∈ quotedData := by decide
        exact RuleInfo.keepsLine_of_data
          ⟨Or.inl hquoted, Or.inr (ServiceName.oneLine_accessor name)⟩

end ServiceImport

theorem ApiContract.keepsLine_check {ctx : FileContext} {f : Finding}
    (h : f ∈ ApiContract.check ctx) : ApiContract.info.KeepsLine f :=
  RuleInfo.keepsLine_of_mem_ite h (RuleInfo.keepsLine_of_gaps rfl)

theorem ComponentShape.keepsLines_rule (limit : Nat) (ctx : FileContext) :
    (ComponentShape.rule limit).KeepsLines ctx where
  finds := by
    intro o s fs hfs f hf
    cases o with
    | node v =>
      have hnode : (ComponentShape.onNode v ctx s).1 = .ok fs := hfs
      unfold ComponentShape.onNode at hnode
      split at hnode
      · cases hnode
        exact absurd hf List.not_mem_nil
      · simp only at hnode
        split at hnode
        · cases hnode
          rw [List.mem_singleton.1 hf]
          exact RuleInfo.keepsLine_of_gaps rfl
        · cases hnode
          exact absurd hf List.not_mem_nil
    | exit =>
      cases hfs
      exact RuleInfo.keepsLine_of_mem_ite hf (RuleInfo.keepsLine_of_data
        ⟨Or.inr (oneLine_repr _), Or.inr (oneLine_repr _)⟩)
    | unparsed =>
      cases hfs
      exact absurd hf List.not_mem_nil
  fails := by
    intro o s fault hfault
    cases o with
    | node v =>
      have hnode : (ComponentShape.onNode v ctx s).1 = .error fault := hfault
      unfold ComponentShape.onNode at hnode
      split at hnode
      · cases hnode
      · simp only at hnode
        split at hnode <;> cases hnode
    | exit => cases hfault
    | unparsed => cases hfault

namespace FunctionTests

/-- The name of a test file is made from that of the file. -/
theorem oneLine_candidates {path : String} {paths : String × String}
    (h : candidates path = .ok paths) (hname : OneLine (Path.name path)) :
    OneLine (Path.name paths.1) := by
  unfold candidates at h
  split at h
  · cases h
  · rename_i hsome
    cases h
    have hkept := Path.isKept_name (by simpa using hsome)
    obtain ⟨hstem, hsuffix⟩ := Path.splitSuffix_subset (Path.name path)
    have hmark : Path.IsKept (Path.stem path ++ ".spec" ++ Path.suffix path) := by
      refine ⟨by simp, fun hdot => ?_, ?_⟩
      · have hlength := congrArg String.length hdot
        simp only [String.length_append] at hlength
        have hspec : ".spec".length = 5 := by decide
        have hpoint : ".".length = 1 := by decide
        omega
      · simp only [String.toList_append, List.mem_append, not_or]
        exact ⟨⟨fun hmem => hkept.no_slash (hstem hmem), by decide⟩,
          fun hmem => hkept.no_slash (hsuffix hmem)⟩
    show OneLine (Path.name (Path.withName path (Path.stem path ++ ".spec" ++ Path.suffix path)))
    rw [Path.name_withName hmark, oneLine_append, oneLine_append]
    exact ⟨⟨hname.of_subset hstem, by decide⟩, hname.of_subset hsuffix⟩

theorem oneLine_nameFault {path : String} {f : NameFault} (h : candidates path = .error f) :
    OneLine f.message := by
  unfold candidates at h
  split at h
  · rename_i hnone
    cases h
    rcases Path.spelled_of_name_eq_empty (beq_iff_eq.1 hnone) with hpath | hpath | hpath <;>
      rw [hpath] <;> decide
  · cases h

variable {view : FileView} {paths : String × String}

theorem keepsLine_checkTests {fs : List Finding} (h : checkTests view paths = .ok fs)
    (hname : OneLine (Path.name paths.1)) : ∀ f ∈ fs, info.KeepsLine f := by
  intro f hf
  obtain ⟨found, -, h⟩ := bind_eq_ok h
  cases found with
  | none =>
    cases h
    rw [List.mem_singleton.1 hf]
    exact RuleInfo.keepsLine_of_data (Or.inr hname)
  | some path =>
    obtain ⟨text, -, h⟩ := bind_eq_ok h
    split at h
    · cases h
      exact absurd hf List.not_mem_nil
    · cases h
      rw [List.mem_singleton.1 hf]
      exact RuleInfo.keepsLine_of_gaps rfl

theorem tellsOneLine_existing? (hview : view.TellsOneLine) {fault : Fault}
    (h : existing? view paths = .error fault) : fault.TellsOneLine := by
  rcases bind_eq_error h with h | ⟨first, -, h⟩
  · exact hview.isFile h
  cases first with
  | true => cases h
  | false =>
    rcases bind_eq_error h with h | ⟨second, -, h⟩
    · exact hview.isFile h
    · cases second <;> cases h

theorem tellsOneLine_checkTests (hview : view.TellsOneLine) {fault : Fault}
    (h : checkTests view paths = .error fault) : fault.TellsOneLine := by
  rcases bind_eq_error h with h | ⟨found, -, h⟩
  · exact tellsOneLine_existing? hview h
  cases found with
  | none => cases h
  | some path =>
    rcases bind_eq_error h with h | ⟨text, -, h⟩
    · exact hview.readText h
    · split at h <;> cases h

theorem extension_ne_empty_of_applies {markers : List String} {relPath : String}
    (h : applies markers relPath = true) : Path.extension relPath ≠ "" := by
  intro hnone
  rw [applies, hnone] at h
  simp at h

theorem keepsLines_rule (directories : List String) {ctx : FileContext}
    (hctx : ctx.NamesOneLine) : (rule directories).KeepsLines ctx where
  finds := by
    intro o s fs hfs f hf
    cases o with
    | node v =>
      have hcheck : check (directories.map marker) ctx = .ok fs := hfs
      unfold check at hcheck
      split at hcheck
      · cases hcheck
        exact absurd hf List.not_mem_nil
      · rename_i hlook
        have happlies : applies (directories.map marker) ctx.relPath = true := by
          simp only [Bool.or_eq_true, Bool.not_eq_true', not_or, Bool.not_eq_false] at hlook
          exact hlook.1
        have hname := hctx.name (extension_ne_empty_of_applies happlies)
        split at hcheck
        · rename_i paths hpaths
          exact keepsLine_checkTests hcheck (oneLine_candidates hpaths hname) f hf
        · cases hcheck
    | exit | unparsed =>
      cases hfs
      exact absurd hf List.not_mem_nil
  fails := by
    intro o s fault hfault
    cases o with
    | node v =>
      have hcheck : check (directories.map marker) ctx = .error fault := hfault
      unfold check at hcheck
      split at hcheck
      · cases hcheck
      · split at hcheck
        · exact tellsOneLine_checkTests hctx.view hcheck
        · rename_i f hf
          cases hcheck
          exact ⟨show OneLine "ValueError" by decide, oneLine_nameFault hf⟩
    | exit | unparsed => cases hfault

end FunctionTests

namespace SliceBaseline

theorem tellsOneLine_check {files : List String} {ctx : FileContext}
    (hview : ctx.run.view.TellsOneLine) {fault : Fault} (h : check files ctx = .error fault) :
    fault.TellsOneLine := by
  unfold check at h
  split at h
  · split at h
    · obtain ⟨file, -, hfile⟩ := exists_of_mapM_eq_error (map_eq_error h)
      rw [checkFile_eq] at hfile
      exact hview.isFile (map_eq_error hfile)
    · cases h
  · cases h

theorem keepsLines_rule (files : List String) {ctx : FileContext} (hctx : ctx.NamesOneLine) :
    (rule files).KeepsLines ctx where
  finds := by
    intro o s fs hfs f hf
    cases o with
    | exit =>
      cases hfs
      exact absurd hf List.not_mem_nil
    | node _ | unparsed =>
      obtain ⟨file, rfl⟩ := exists_missing_of_mem_check hfs hf
      have hquoted : ("missingBaseline", "filename") ∈ quotedData := by decide
      exact RuleInfo.keepsLine_of_data (Or.inl hquoted)
  fails := by
    intro o s fault hfault
    cases o with
    | exit => cases hfault
    | node _ | unparsed => exact tellsOneLine_check hctx.view hfault

end SliceBaseline

/-- **Rules.** In a file whose names are of one line, a built-in rule shows nothing with a newline
in it but quoted data, and tells in one line why it fails. -/
theorem ConfiguredRule.keepsLines (r : ConfiguredRule) {ctx : FileContext}
    (hctx : ctx.NamesOneLine) : r.rule.KeepsLines ctx := by
  cases r with
  | literalStyle =>
    refine Rule.keepsLines_ofNodes fun v f hf => ?_
    split at hf
    · exact LiteralStyle.keepsLine_checkStyle hf
    · exact absurd hf List.not_mem_nil
  | layerBoundary => exact Rule.keepsLines_ofNodes fun v f => LayerBoundary.keepsLine_check hctx
  | componentShape limit => exact ComponentShape.keepsLines_rule limit ctx
  | functionTests directories => exact FunctionTests.keepsLines_rule directories hctx
  | serviceImport => exact Rule.keepsLines_ofNodes fun v f => ServiceImport.keepsLine_check
  | apiContract => exact Rule.keepsLines_ofNodes fun v f => ApiContract.keepsLine_check
  | sliceBaseline files => exact SliceBaseline.keepsLines_rule files hctx

/-! ## Messages -/

theorem not_quotesBreak {messageId : String} (h : ∀ datum ∈ quotedData, datum.1 ≠ messageId)
    (data : Data) : ¬ QuotesBreak messageId data := by
  rintro ⟨name, text, hmem, -, -⟩
  exact h _ hmem rfl

namespace Engine

variable {e : Engine} {said : Severity × String}

/-- What is said of a finding is of one line exactly when no newline is quoted. -/
theorem oneLine_wording_iff {r : ConfiguredRule} {f : Finding}
    (hkeeps : r.rule.info.KeepsLine f) (hid : f.messageId ≠ failureId)
    (h : e.wording r.rule f = .ok said) : OneLine said.2 ↔ ¬ QuotesBreak f.messageId f.data := by
  unfold wording at h
  rw [if_neg fun heq => hid (beq_iff_eq.1 heq)] at h
  split at h
  · cases h
  · rename_i t ht
    have hmem : (f.messageId, t) ∈ r.builtin.info.messages := by
      rw [r.rule_info] at ht
      obtain ⟨front, back, hmessages, -⟩ := List.lookup_eq_some_iff.1 ht
      rw [hmessages]
      exact List.mem_append_right _ List.mem_cons_self
    obtain ⟨htexts, hquoted⟩ := r.builtin.messages_oneLine _ hmem
    split at h
    · rename_i message hfill
      cases h
      rw [Template.oneLine_of_fill hfill htexts]
      constructor
      · rintro hgaps ⟨name, text, hname, htext, hbreak⟩
        exact hbreak (hgaps name (hquoted _ hname rfl) _ htext)
      · intro hnone name hname d hd
        by_cases hmem : (f.messageId, name) ∈ quotedData
        · cases d with
          | text s =>
            by_contra hbreak
            exact hnone ⟨name, s, hmem, hd, hbreak⟩
          | number n => exact oneLine_repr n
        · exact hkeeps t ht name hname hmem d hd
    · cases h

theorem oneLine_wording_failure {r : ConfiguredRule} {o : Occasion} {fault : Fault}
    (hfault : fault.TellsOneLine)
    (h : e.wording r.rule (failureFinding r.rule o fault) = .ok said) : OneLine said.2 := by
  have hid : OneLine r.rule.info.id := by
    rw [r.rule_id]
    cases r.builtin <;> decide
  cases h
  show OneLine ("Rule '" ++ r.rule.info.id ++ "' failed: " ++ fault.kind ++ ": " ++ fault.text)
  simp +decide [hid, hfault.kind, hfault.text]

/-- **Messages.** The message of a violation that reports what a call of a rule finds is of one line
exactly when no newline is quoted in it. -/
theorem oneLine_iff {r : ConfiguredRule} {rules : List Rule} {ctx : FileContext} {c : Call}
    (hctx : ctx.NamesOneLine) (hrule : c.rule = r.rule) (hc : c.Genuine rules ctx)
    {x : Rule × Finding} (hx : x ∈ c.findings) {relPath : String} {lines : List String}
    {v : Violation} (hv : e.Reports relPath lines x v) :
    OneLine v.message ↔ ¬ QuotesBreak v.messageId v.data := by
  obtain ⟨-, s, hs⟩ := hc
  have hkeeps := r.keepsLines hctx
  rw [hrule] at hs
  cases houtcome : c.outcome with
  | ok fs =>
    rw [Call.findings_of_ok houtcome, hrule] at hx
    obtain ⟨f, hf, rfl⟩ := List.mem_map.1 hx
    obtain ⟨n, said, hsaid, rfl⟩ := hv.eq_numbered
    have hfs := hs.symm.trans houtcome
    exact oneLine_wording_iff (hkeeps.finds hfs f hf)
      (r.avoidsFailureId c.occasion ctx s fs hfs f hf) hsaid
  | error fault =>
    rw [Call.findings_of_error houtcome, hrule] at hx
    rw [List.mem_singleton.1 hx] at hv
    obtain ⟨n, said, hsaid, rfl⟩ := hv.eq_numbered
    refine iff_of_true (oneLine_wording_failure (hkeeps.fails (hs.symm.trans houtcome)) hsaid) ?_
    show ¬ QuotesBreak failureId _
    exact not_quotesBreak (by decide) _

end Engine

end SliceLint
