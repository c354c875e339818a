import SliceLint.Proofs.Path.Import
import SliceLint.Proofs.Path.Marker
import SliceLint.Proofs.Rule.ImportCycle
import SliceLint.Proofs.Rule.LayerBoundary
import Mathlib.Data.Set.Function

/-!
# Slices under other names

A project is looked at twice, the second time with its slices under other names.

**Places** (`SlicePlace`). A path inside a slice with a gap where the slice is named. Every path
with a segment below its slice is such a place filled in (`SlicePlace.exists_of_segments`).

**Coordinates and markers.** Where a path lies does not depend on the name that fills the gap but
through the slice itself (`SlicePlace.coordinate_path`). The markers in a path are looked for in all
of its pieces. So the name counts, but only in two ways: it may be `ui`, and it may start with `api`
(`SlicePlace.inUi_path`, `SlicePlace.mentionsApi_path`).

**Renaming** (`LayerBoundary.messageIds_renamed`). Under other names an import has the same
messages, those about the user interface and the server apart. These stay as well unless a name
becomes `ui` or starts with `api`, or ceases to.
-/

namespace SliceLint

/-! ## Places -/

/-- A name that a slice can have. -/
structure IsSliceName (name : String) : Prop where
  ne_empty : name ≠ ""
  no_slash : '/' ∉ name.toList

/-- A path inside a slice, cut in pieces, with a gap where the slice is named. -/
structure SlicePlace (sourceRoot : String) where
  layer : Layer
  sliced : layer.isSliced
  above : List String
  below : List String
  no_slash : ∀ piece ∈ above ++ below, '/' ∉ piece.toList
  segments_above : above.filter (· != "") = Path.segments sourceRoot ++ [layer.name]
  segments_below : below.filter (· != "") ≠ []

namespace SlicePlace

variable {sourceRoot : String}

/-- The path with the name of the slice in the gap. -/
def path (place : SlicePlace sourceRoot) (slice : String) : String :=
  Text.join "/" (place.above ++ slice :: place.below)

/-- Every path with a segment below its slice is a place in the slice. -/
theorem exists_of_segments {p slice : String} {layer : Layer} {rest : List String}
    (hlayer : layer.isSliced) (hrest : rest ≠ [])
    (hp : Path.segments p = Path.segments sourceRoot ++ layer.name :: slice :: rest) :
    ∃ place : SlicePlace sourceRoot, place.layer = layer ∧ place.path slice = p := by
  have hfront : Path.segments p =
      (Path.segments sourceRoot ++ [layer.name]) ++ slice :: rest := by simpa using hp
  obtain ⟨above, tail, hpieces, habove, htail⟩ := List.filter_eq_append_iff.1 hfront
  obtain ⟨gap, below, rfl, hgap, hslice, hbelow⟩ := List.filter_eq_cons_iff.1 htail
  have hgap : gap.filter (· != "") = [] := List.filter_eq_nil_iff.2 hgap
  refine ⟨⟨layer, hlayer, above ++ gap, below, ?_, ?_, ?_⟩, rfl, ?_⟩
  · intro piece hpiece
    refine Path.notMem_of_mem_pieces (p := p) ?_
    rw [hpieces]
    simp only [List.mem_append, List.mem_cons] at hpiece ⊢
    tauto
  · rw [List.filter_append, habove, hgap, List.append_nil]
  · rwa [hbelow]
  · rw [path, List.append_assoc, ← hpieces, Path.join_pieces]

variable (place : SlicePlace sourceRoot) {slice : String}

theorem pieces_path (h : IsSliceName slice) :
    Path.pieces (place.path slice) = place.above ++ slice :: place.below := by
  refine Path.pieces_join (by simp) fun piece hpiece => ?_
  rw [List.mem_append, List.mem_cons] at hpiece
  rcases hpiece with habove | rfl | hbelow
  · exact place.no_slash piece (List.mem_append_left _ habove)
  · exact h.no_slash
  · exact place.no_slash piece (List.mem_append_right _ hbelow)

theorem coordinate_path (h : IsSliceName slice) :
    Coordinate.ofPath? (place.path slice) sourceRoot = some ⟨place.layer, some slice⟩ := by
  refine Coordinate.ofPath?_of_segments place.sliced place.segments_below ?_
  have hslice : (slice :: place.below).filter (· != "") = slice :: place.below.filter (· != "") :=
    List.filter_cons_of_pos (bne_iff_ne.2 h.ne_empty)
  rw [Path.segments, place.pieces_path h, List.filter_append, hslice, place.segments_above,
    List.append_assoc, List.singleton_append]

theorem below_ne_nil : place.below ≠ [] := by
  intro hnil
  exact place.segments_below (by rw [hnil]; rfl)

theorem inUi_path (h : IsSliceName slice) : FileKind.inUi (place.path slice) = true ↔
    slice = "ui" ∨ "ui" ∈ place.above ++ place.below.dropLast := by
  have hlast : (place.above ++ slice :: place.below).dropLast =
      place.above ++ slice :: place.below.dropLast := by
    rw [List.dropLast_append_of_ne_nil (List.cons_ne_nil _ _),
      List.dropLast_cons_of_ne_nil place.below_ne_nil]
  rw [FileKind.inUi_iff, place.pieces_path h, hlast]
  simp only [List.mem_append, List.mem_cons, eq_comm (a := "ui")]
  tauto

theorem mentionsApi_path (h : IsSliceName slice) : FileKind.mentionsApi (place.path slice) = true ↔
    "api".toList <+: slice.toList ∨
      ∃ piece ∈ place.above ++ place.below, "api".toList <+: piece.toList := by
  rw [FileKind.mentionsApi_iff, place.pieces_path h]
  simp only [List.mem_append, List.mem_cons]
  constructor
  · rintro ⟨piece, hpiece | rfl | hpiece, hapi⟩
    · exact Or.inr ⟨piece, Or.inl hpiece, hapi⟩
    · exact Or.inl hapi
    · exact Or.inr ⟨piece, Or.inr hpiece, hapi⟩
  · rintro (hapi | ⟨piece, hpiece | hpiece, hapi⟩)
    · exact ⟨slice, Or.inr (Or.inl rfl), hapi⟩
    · exact ⟨piece, Or.inl hpiece, hapi⟩
    · exact ⟨piece, Or.inr (Or.inr hpiece), hapi⟩

end SlicePlace

/-! ## Markers in names -/

/-- Two names that the markers in paths do not tell apart. -/
structure MarkedAlike (name other : String) : Prop where
  ui : name = "ui" ↔ other = "ui"
  api : "api".toList <+: name.toList ↔ "api".toList <+: other.toList

namespace MarkedAlike

variable {sourceRoot : String} {name other : String} (place : SlicePlace sourceRoot)

theorem inUi_eq (h : MarkedAlike name other) (hname : IsSliceName name)
    (hother : IsSliceName other) :
    FileKind.inUi (place.path name) = FileKind.inUi (place.path other) := by
  rw [Bool.eq_iff_iff, place.inUi_path hname, place.inUi_path hother, h.ui]

theorem mentionsApi_eq (h : MarkedAlike name other) (hname : IsSliceName name)
    (hother : IsSliceName other) :
    FileKind.mentionsApi (place.path name) = FileKind.mentionsApi (place.path other) := by
  rw [Bool.eq_iff_iff, place.mentionsApi_path hname, place.mentionsApi_path hother, h.api]

end MarkedAlike

/-! ## Renaming -/

namespace LayerBoundary

/-- A statement in a file at home in one slice that imports from a place in another slice, or in the
same one. -/
structure SliceImport {sourceRoot : String} (home target : SlicePlace sourceRoot)
    (own other : String) (statement : Tree) (ctx : FileContext) : Prop where
  own_name : IsSliceName own
  other_name : IsSliceName other
  sourceRoot_eq : ctx.run.sourceRoot = sourceRoot
  relPath_eq : ctx.relPath = home.path own
  coordinate_eq : ctx.coordinate = Coordinate.ofPath? ctx.relPath ctx.run.sourceRoot
  leads : ∃ source, statement.importSource? = some source ∧
    resolveImport? source ctx.relPath ctx.run.aliases = some (target.path other)

/-- An import before and after a consistent renaming of slices: different slices get different
names, and nothing but the names of the slices is changed. -/
structure SliceRenaming {sourceRoot : String} (rename : String → String) (names : Set String)
    (home target : SlicePlace sourceRoot) (own other : String) (before after : Tree)
    (ctx ctx' : FileContext) : Prop where
  consistent : Set.InjOn rename names
  own_mem : own ∈ names
  other_mem : other ∈ names
  before_import : SliceImport home target own other before ctx
  after_import : SliceImport home target (rename own) (rename other) after ctx'
  hierarchy_eq : ctx'.run.hierarchy = ctx.run.hierarchy
  bindings_eq : after.importBindings = before.importBindings

/-- The messages that go by markers in paths. -/
def markerIds : List String := ["directApiImportInUI", "uiImportInApi"]

/-- What the statement of such an import imports. -/
def importOf {sourceRoot : String} (home target : SlicePlace sourceRoot) (own other : String)
    (statement : Tree) : Import :=
  ⟨⟨home.layer, some own⟩, ⟨target.layer, some other⟩, target.path other,
    hookNames statement.importBindings, statement.start⟩

theorem SliceImport.import?_eq {sourceRoot : String} {home target : SlicePlace sourceRoot}
    {own other : String} {statement : Tree} {ctx : FileContext}
    (h : SliceImport home target own other statement ctx) :
    LayerBoundary.import? statement ctx = some (importOf home target own other statement) := by
  obtain ⟨source, hsource, hpath⟩ := h.leads
  have hfile : ctx.coordinate = some ⟨home.layer, some own⟩ := by
    rw [h.coordinate_eq, h.relPath_eq, h.sourceRoot_eq, home.coordinate_path h.own_name]
  have htarget : Coordinate.ofPath? (target.path other) ctx.run.sourceRoot =
      some ⟨target.layer, some other⟩ := by
    rw [h.sourceRoot_eq, target.coordinate_path h.other_name]
  exact import?_eq_some hfile hsource hpath htarget

theorem unmarkedIds_eq {statement : Tree} {ctx : FileContext} {i : Import}
    (h : LayerBoundary.import? statement ctx = some i) :
    (messageIds statement ctx).filter (fun id => !markerIds.contains id) =
      (checkHooks i).map Finding.messageId ++
        (checkDirection ctx.run.hierarchy i).map Finding.messageId ++
        (checkSlices i).map Finding.messageId := by
  rw [filter_messageIds _ h, if_pos (by decide), if_pos (by decide), if_pos (by decide),
    if_neg (by decide), if_neg (by decide), List.append_nil, List.append_nil]

section Renamed

variable {sourceRoot : String} {rename : String → String} {names : Set String}
  {home target : SlicePlace sourceRoot} {own other : String} {before after : Tree}
  {ctx ctx' : FileContext}

/-- A renaming keeps apart what it finds apart, and leaves together what it finds together. -/
theorem SliceRenaming.eq_iff (h : SliceRenaming rename names home target own other before after
    ctx ctx') : rename own = rename other ↔ own = other :=
  h.consistent.eq_iff h.own_mem h.other_mem

/-- The checks that do not go by markers give the same messages before and after. -/
theorem SliceRenaming.unmarked_eq
    (h : SliceRenaming rename names home target own other before after ctx ctx') :
    (checkHooks (importOf home target (rename own) (rename other) after)).map Finding.messageId ++
        (checkDirection ctx'.run.hierarchy
          (importOf home target (rename own) (rename other) after)).map Finding.messageId ++
        (checkSlices (importOf home target (rename own) (rename other) after)).map
          Finding.messageId =
      (checkHooks (importOf home target own other before)).map Finding.messageId ++
        (checkDirection ctx.run.hierarchy (importOf home target own other before)).map
          Finding.messageId ++
        (checkSlices (importOf home target own other before)).map Finding.messageId := by
  have hcrosses : (importOf home target (rename own) (rename other) after).crosses =
      (importOf home target own other before).crosses := by
    rw [Import.crosses, Import.crosses, Bool.eq_iff_iff]
    simp [importOf, h.eq_iff]
  simp only [messageIds_checkHooks, messageIds_checkDirection, messageIds_checkSlices, hcrosses]
  rw [importOf, importOf, h.hierarchy_eq, h.bindings_eq]

/-- **Renaming.** Slices under other names leave an import its messages on direction, slices and
hooks. They leave it all of its messages where the markers in paths do not tell the new names from
the old ones. -/
theorem messageIds_renamed
    (h : SliceRenaming rename names home target own other before after ctx ctx') :
    (messageIds after ctx').filter (fun id => !markerIds.contains id) =
        (messageIds before ctx).filter (fun id => !markerIds.contains id) ∧
      (MarkedAlike own (rename own) → MarkedAlike other (rename other) →
        messageIds after ctx' = messageIds before ctx) := by
  have hbefore := h.before_import.import?_eq
  have hafter := h.after_import.import?_eq
  refine ⟨by rw [unmarkedIds_eq hbefore, unmarkedIds_eq hafter, h.unmarked_eq],
    fun hown hother => ?_⟩
  have hownNames := And.intro h.before_import.own_name h.after_import.own_name
  have hotherNames := And.intro h.before_import.other_name h.after_import.other_name
  rw [messageIds_eq hbefore, messageIds_eq hafter, h.unmarked_eq, messageIds_checkInterface,
    messageIds_checkInterface, messageIds_checkServer, messageIds_checkServer,
    h.before_import.relPath_eq, h.after_import.relPath_eq, importOf, importOf,
    hown.inUi_eq home hownNames.1 hownNames.2, hown.mentionsApi_eq home hownNames.1 hownNames.2,
    hother.inUi_eq target hotherNames.1 hotherNames.2,
    hother.mentionsApi_eq target hotherNames.1 hotherNames.2]

end Renamed

/-! ## A slice that gets a prefix -/

/-- The list in the user interface of a feature. -/
def listPlace : SlicePlace "app" where
  layer := .features
  sliced := Layer.isSliced_features
  above := ["app", "features"]
  below := ["ui", "list.tsx"]
  no_slash := by decide +kernel
  segments_above := by decide +kernel
  segments_below := List.cons_ne_nil _ _

/-- A file or a folder directly in a feature. -/
def featurePlace (name : String) (hname : '/' ∉ name.toList ∧ name ≠ "") : SlicePlace "app" where
  layer := .features
  sliced := Layer.isSliced_features
  above := ["app", "features"]
  below := [name]
  no_slash := by
    intro piece hpiece
    rcases List.mem_append.1 hpiece with habove | hbelow
    · exact (by decide +kernel : ∀ piece ∈ ["app", "features"], '/' ∉ piece.toList) piece habove
    · rw [List.mem_singleton.1 hbelow]
      exact hname.1
  segments_above := by decide +kernel
  segments_below := by simp [hname.2]

/-- The model of a feature. -/
def modelPlace : SlicePlace "app" := featurePlace "model" (by decide)

/-- What a feature says to a server. -/
def apiPlace : SlicePlace "app" := featurePlace "api" (by decide)

/-- An import of the list of a feature. -/
def listImport (slice specifier : String) : ImportSite :=
  ImportCycle.shopImport (listPlace.path slice) specifier

theorem coordinate_listImport (slice specifier : String) :
    (listImport slice specifier).file.coordinate =
      Coordinate.ofPath? (listImport slice specifier).file.relPath
        (listImport slice specifier).file.run.sourceRoot := by
  simp only [listImport, ImportCycle.shopImport, RunContext.build]

/-- The import of the list leads to a place in a feature. -/
structure LeadsTo (target : SlicePlace "app") (own other specifier : String) : Prop where
  own_name : IsSliceName own
  other_name : IsSliceName other
  source : (listImport own specifier).visit.node.importSource? = some specifier
  path : resolveImport? specifier (listPlace.path own) [("~/", "app/")] = some (target.path other)

theorem LeadsTo.sliceImport {target : SlicePlace "app"} {own other specifier : String}
    (h : LeadsTo target own other specifier) :
    SliceImport listPlace target own other (listImport own specifier).visit.node
      (listImport own specifier).file where
  own_name := h.own_name
  other_name := h.other_name
  sourceRoot_eq := rfl
  relPath_eq := rfl
  coordinate_eq := coordinate_listImport own specifier
  leads := ⟨specifier, h.source, h.path⟩

/-- Features get a prefix. -/
theorem sliceRenaming_listImport (lead : String) {target : SlicePlace "app"} {names : Set String}
    {own other before after : String} (hown : own ∈ names) (hother : other ∈ names)
    (hbefore : LeadsTo target own other before)
    (hafter : LeadsTo target (lead ++ own) (lead ++ other) after) :
    SliceRenaming (lead ++ ·) names listPlace target own other
      (listImport own before).visit.node (listImport (lead ++ own) after).visit.node
      (listImport own before).file (listImport (lead ++ own) after).file where
  consistent := fun name _ name' _ heq => by simpa using heq
  own_mem := hown
  other_mem := hother
  before_import := hbefore.sliceImport
  after_import := hafter.sliceImport
  hierarchy_eq := rfl
  bindings_eq := rfl

/-- The list reaches into another feature, and there to the server. Under other names of the two
features the messages are the same. -/
theorem messageIds_renamed_cart :
    SliceRenaming ("my-" ++ ·) {"cart", "user"} listPlace apiPlace "cart" "user"
        (listImport "cart" "../../user/api").visit.node
        (listImport "my-cart" "../../my-user/api").visit.node
        (listImport "cart" "../../user/api").file
        (listImport "my-cart" "../../my-user/api").file ∧
      MarkedAlike "cart" "my-cart" ∧ MarkedAlike "user" "my-user" ∧
      messageIds (listImport "my-cart" "../../my-user/api").visit.node
          (listImport "my-cart" "../../my-user/api").file =
        messageIds (listImport "cart" "../../user/api").visit.node
          (listImport "cart" "../../user/api").file ∧
      messageIds (listImport "cart" "../../user/api").visit.node
          (listImport "cart" "../../user/api").file =
        ["crossSliceImport", "directApiImportInUI"] := by
  have hbefore : LeadsTo apiPlace "cart" "user" "../../user/api" :=
    ⟨⟨by decide, by decide⟩, ⟨by decide, by decide⟩, by decide +kernel, by decide +kernel⟩
  have hafter : LeadsTo apiPlace "my-cart" "my-user" "../../my-user/api" :=
    ⟨⟨by decide, by decide⟩, ⟨by decide, by decide⟩, by decide +kernel, by decide +kernel⟩
  have hrenaming := sliceRenaming_listImport "my-" (Set.mem_insert "cart" {"user"})
    (Set.mem_insert_of_mem _ rfl) hbefore hafter
  have hcart : MarkedAlike "cart" "my-cart" := ⟨by decide, by decide⟩
  have huser : MarkedAlike "user" "my-user" := ⟨by decide, by decide⟩
  exact ⟨hrenaming, hcart, huser, (messageIds_renamed hrenaming).2 hcart huser, by decide +kernel⟩

/-- A feature whose new name starts with `api` gets a message that it had not. -/
theorem messageIds_not_renamed_keys :
    SliceRenaming ("api-" ++ ·) {"keys"} listPlace modelPlace "keys" "keys"
        (listImport "keys" "../model").visit.node (listImport "api-keys" "../model").visit.node
        (listImport "keys" "../model").file (listImport "api-keys" "../model").file ∧
      messageIds (listImport "keys" "../model").visit.node (listImport "keys" "../model").file =
        [] ∧
      messageIds (listImport "api-keys" "../model").visit.node
          (listImport "api-keys" "../model").file = ["directApiImportInUI"] := by
  have hbefore : LeadsTo modelPlace "keys" "keys" "../model" :=
    ⟨⟨by decide, by decide⟩, ⟨by decide, by decide⟩, by decide +kernel, by decide +kernel⟩
  have hafter : LeadsTo modelPlace "api-keys" "api-keys" "../model" :=
    ⟨⟨by decide, by decide⟩, ⟨by decide, by decide⟩, by decide +kernel, by decide +kernel⟩
  exact ⟨sliceRenaming_listImport "api-" rfl rfl hbefore hafter, by decide +kernel, by decide +kernel⟩

end LayerBoundary

end SliceLint
