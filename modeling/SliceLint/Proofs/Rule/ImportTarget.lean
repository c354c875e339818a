import SliceLint.Proofs.Path.Extension
import SliceLint.Proofs.Rule.ImportCycle
import SliceLint.Proofs.Rule.LayerBoundary

/-!
# The file that an import names

An import may name a file by its path, by its path without the extension, or, where it is an index,
by its folder. Where the path lies is told from its segments alone, without a look at the disk.

**Places** (`LayerFile.place`). The path of a source file, and the paths that may stand for it.

**Coordinates** (`LayerFile.ofSegments?_ending`). A path that stands for a file has the coordinate of
the file unless it misleads: the last segment of a path directly below a layer is taken for a file
if there is a point in it, and for a slice if there is none.

**Specifiers** (`LayerFile.specifies_standard`, `LayerFile.specifies_relative`). Each way of naming
a file has a specifier behind the prefix of the source root, and one relative to any other file.

**Imports** (`LayerFile.imported_alike`). However a specifier spells a path that does not mislead,
an import is resolved to the coordinate of the file, and its verdict is the same.
-/

namespace SliceLint

/-! ## Points in names -/

theorem contains_point_iff {name : String} : name.contains '.' = true ↔ '.' ∈ name.toList := by
  rw [String.contains_char_eq, decide_eq_true_iff]

namespace Path

theorem point_mem_of_splitName {name : List Char} (h : (splitName name).2 ≠ []) : '.' ∈ name := by
  obtain ⟨front, ext, -, -, hname, -⟩ := exists_of_splitName h
  rw [hname]
  exact List.mem_append_right _ List.mem_cons_self

theorem point_mem_of_extension {name : String} (hname : '/' ∉ name.toList)
    (h : extension name ≠ "") : '.' ∈ name.toList := by
  rw [extension, baseName_of_no_slash hname] at h
  refine point_mem_of_splitName fun hnil => h ?_
  rw [hnil]

end Path

/-! ## Coordinates below a layer -/

theorem Layer.isName_name (l : Layer) : Path.IsName l.name := by
  cases l <;> decide

namespace Coordinate

variable {layer : Layer}

theorem ofSegments?_layer (layer : Layer) : ofSegments? [layer.name] = some ⟨layer, none⟩ := by
  simp [ofSegments?, Layer.ofName?_name]

theorem ofSegments?_file {name : String} (h : '.' ∈ name.toList) :
    ofSegments? [layer.name, name] = some ⟨layer, none⟩ := by
  simp [ofSegments?, Layer.ofName?_name, contains_point_iff.2 h]

theorem ofSegments?_last_slice (hlayer : layer.isSliced) {name : String} (h : '.' ∉ name.toList) :
    ofSegments? [layer.name, name] = some ⟨layer, some name⟩ := by
  have hpoint : name.contains '.' = false := by
    rwa [← Bool.not_eq_true, contains_point_iff]
  simp [ofSegments?, Layer.ofName?_name, hlayer, hpoint]

end Coordinate

/-! ## Files -/

/-- A source file of a layer that has slices. -/
structure LayerFile where
  roots : List String
  layer : Layer
  folders : List String
  file : String
  sliced : layer.isSliced
  names : ∀ name ∈ roots ++ folders ++ [file], Path.IsName name
  source : Selection.isSource (Path.extension file)

/-- How an import may name a file: by its path, by its path without the extension, or, if it is an
index, by its folder. -/
inductive ImportWay where
  | path
  | bare
  | folder
deriving DecidableEq, Repr

namespace LayerFile

variable (f : LayerFile)

def sourceRoot : String := Text.join "/" f.roots

/-- The segments below the layer by which the file is named. -/
def ending : ImportWay → List String
  | .path => f.folders ++ [f.file]
  | .bare => f.folders ++ [Path.stemOfBase f.file]
  | .folder => f.folders

/-- The segments by which the file is named. -/
def place (way : ImportWay) : List String := f.roots ++ f.layer.name :: f.ending way

def path : String := Text.join "/" (f.place .path)

/-- Directly below the layer a name without a point passes for a slice, and a name with one for a
file. -/
def Misleads : ImportWay → Prop
  | .path => False
  | .bare => f.folders = [] ∧ '.' ∉ (Path.stemOfBase f.file).toList
  | .folder => ∃ slice, f.folders = [slice] ∧ '.' ∈ slice.toList

theorem isName_of_mem_place {name : String} (h : name ∈ f.place .path) : Path.IsName name := by
  rw [place, ending, List.mem_append, List.mem_cons] at h
  rcases h with h | rfl | h
  · exact f.names name (List.mem_append_left _ (List.mem_append_left _ h))
  · exact f.layer.isName_name
  · exact f.names name (by rw [List.append_assoc]; exact List.mem_append_right _ h)

theorem segments_path : Path.segments f.path = f.place .path :=
  Path.segments_join (fun _ hname => (f.isName_of_mem_place hname).no_slash)
    fun hempty => (f.isName_of_mem_place hempty).ne_empty rfl

theorem segments_sourceRoot : Path.segments f.sourceRoot = f.roots := by
  have hnames : ∀ name ∈ f.roots, Path.IsName name := fun name hname =>
    f.names name (List.mem_append_left _ (List.mem_append_left _ hname))
  exact Path.segments_join (fun name hname => (hnames name hname).no_slash)
    fun hempty => (hnames "" hempty).ne_empty rfl

theorem point_mem_file : '.' ∈ f.file.toList := by
  have hname := f.names f.file (List.mem_append_right _ (List.mem_singleton_self _))
  refine Path.point_mem_of_extension hname.no_slash fun hempty => ?_
  have hsource := f.source
  rw [hempty] at hsource
  exact absurd hsource (by decide)

/-- A path that stands for the file has the coordinate that its segments below the layer name. -/
theorem ofPath?_of_segments {way : ImportWay} {path : String}
    (h : Path.segments path = f.place way) : Coordinate.ofPath? path f.sourceRoot =
      Coordinate.ofSegments? (f.layer.name :: f.ending way) := by
  have hroots : f.roots.isPrefixOf (f.place way) = true :=
    List.isPrefixOf_iff_prefix.2 (List.prefix_append _ _)
  simp only [Coordinate.ofPath?, h, segments_sourceRoot, if_pos hroots]
  rw [place, List.drop_left]

variable {f}

/-- Directly below the layer there is no slice. -/
theorem ofSegments?_ending_direct (hfolders : f.folders = []) {way : ImportWay}
    (h : ¬ f.Misleads way) :
    Coordinate.ofSegments? (f.layer.name :: f.ending way) = some ⟨f.layer, none⟩ := by
  cases way with
  | path =>
    rw [ending, hfolders]
    exact Coordinate.ofSegments?_file f.point_mem_file
  | bare =>
    have hpoint : '.' ∈ (Path.stemOfBase f.file).toList :=
      Classical.not_not.1 fun hnone => h ⟨hfolders, hnone⟩
    rw [ending, hfolders]
    exact Coordinate.ofSegments?_file hpoint
  | folder =>
    rw [ending, hfolders]
    exact Coordinate.ofSegments?_layer f.layer

/-- Below a folder of the layer there is the slice of the folder. -/
theorem ofSegments?_ending_below {slice : String} {folders : List String}
    (hfolders : f.folders = slice :: folders) {way : ImportWay} (h : ¬ f.Misleads way) :
    Coordinate.ofSegments? (f.layer.name :: f.ending way) = some ⟨f.layer, some slice⟩ := by
  cases way with
  | path =>
    rw [ending, hfolders]
    exact Coordinate.ofSegments?_slice f.sliced slice (by simp)
  | bare =>
    rw [ending, hfolders]
    exact Coordinate.ofSegments?_slice f.sliced slice (by simp)
  | folder =>
    rw [ending, hfolders]
    cases folders with
    | nil =>
      exact Coordinate.ofSegments?_last_slice f.sliced fun hpoint => h ⟨slice, hfolders, hpoint⟩
    | cons folder folders => exact Coordinate.ofSegments?_slice f.sliced slice (by simp)

theorem ofSegments?_ending {way : ImportWay} (h : ¬ f.Misleads way) :
    Coordinate.ofSegments? (f.layer.name :: f.ending way) =
      Coordinate.ofSegments? (f.layer.name :: f.ending .path) := by
  cases hfolders : f.folders with
  | nil => rw [ofSegments?_ending_direct hfolders h, ofSegments?_ending_direct hfolders id]
  | cons slice folders =>
    rw [ofSegments?_ending_below hfolders h, ofSegments?_ending_below hfolders id]

/-! ## Specifiers -/

/-- The prefix that stands for the source root leads to the file, named in any way. -/
theorem specifies_standard {way : ImportWay} (hnames : ∀ name ∈ f.ending way, Path.IsName name)
    (importer : String) : Specifies (Config.standardAliases f.sourceRoot)
      ("~/" ++ Text.join "/" (f.layer.name :: f.ending way)) importer (f.place way) := by
  have hroots : ∀ name ∈ f.roots, Path.IsName name := fun name hname =>
    f.names name (List.mem_append_left _ (List.mem_append_left _ hname))
  have hfolder : Path.spelledSegments (f.sourceRoot ++ "/") = f.roots := by
    have hempty : Path.spelledSegments "" = [] := by decide +kernel
    have hslash := Path.spelledSegments_append_slash f.sourceRoot ""
    rw [String.append_empty, hempty, List.append_nil] at hslash
    rw [hslash, sourceRoot]
    exact Path.spelledSegments_join fun name hname => (hroots name hname).isKept
  have hspecifies := Specifies.of_alias (Aliases.longest?_standardAliases f.sourceRoot _)
    (hfolder.symm ▸ hroots) (List.forall_mem_cons.2 ⟨f.layer.isName_name, hnames⟩) importer
  rwa [hfolder] at hspecifies

/-- Every file leads to the file, named in any way, unless the path of the latter starts with two
points. -/
theorem specifies_relative {way : ImportWay} (hplace : ∀ name ∈ f.place way, Path.IsName name)
    {home : List String} {file : String} (hhome : ∀ name ∈ home ++ [file], Path.IsName name)
    (hdots : ∀ name ∈ (f.place way).head?, ¬ "..".toList <+: name.toList) :
    Specifies (Config.standardAliases f.sourceRoot)
      ("./" ++ Text.join "/" ((home.map fun _ => "..") ++ f.place way))
      (Text.join "/" (home ++ [file])) (f.place way) := by
  have hlead : (Config.standardAliases f.sourceRoot).longest?
      ("./" ++ Text.join "/" ((home.map fun _ => "..") ++ f.place way)) = none := by
    simp [Config.standardAliases, Config.standardPrefixes, Aliases.longest?]
  have hspecifies : Specifies _ _ (Text.join "/" ([] ++ home ++ [file])) ([] ++ f.place way) :=
    Specifies.of_folder hlead hhome hplace hdots
  exact hspecifies

/-! ## Imports -/

/-- The statement imports the file, named in the given way. -/
structure ImportedBy (f : LayerFile) (way : ImportWay) (statement : Tree) (ctx : FileContext) :
    Prop where
  sourceRoot_eq : ctx.run.sourceRoot = f.sourceRoot
  leads : ∃ source, statement.importSource? = some source ∧
    Specifies ctx.run.aliases source ctx.relPath (f.place way)

theorem ImportedBy.exists_path {way : ImportWay} {statement : Tree} {ctx : FileContext}
    (h : f.ImportedBy way statement ctx) : ∃ source path,
      statement.importSource? = some source ∧
      resolveImport? source ctx.relPath ctx.run.aliases = some path ∧
      Coordinate.ofPath? path ctx.run.sourceRoot =
        Coordinate.ofSegments? (f.layer.name :: f.ending way) := by
  obtain ⟨source, hsource, hleads⟩ := h.leads
  obtain ⟨path, hpath, hsegments⟩ := hleads.exists_resolveImport? (by simp [place])
  exact ⟨source, path, hsource, hpath, h.sourceRoot_eq ▸ f.ofPath?_of_segments hsegments⟩

/-- **Imports of a file.** An import that names a file in a way that does not mislead is resolved to
a path with the coordinate of the file, and all such imports of the file have the same verdict.
Where a file directly below its layer is named without its extension and its name has no other
point, the path is that of a slice. -/
theorem imported_alike {way : ImportWay} {statement : Tree} {ctx : FileContext}
    (h : f.ImportedBy way statement ctx) : ∃ source path,
      statement.importSource? = some source ∧
      resolveImport? source ctx.relPath ctx.run.aliases = some path ∧
      (¬ f.Misleads way →
        Coordinate.ofPath? path ctx.run.sourceRoot = Coordinate.ofPath? f.path ctx.run.sourceRoot ∧
        ∀ way' statement', ¬ f.Misleads way' → f.ImportedBy way' statement' ctx →
          LayerBoundary.verdict statement' ctx = LayerBoundary.verdict statement ctx) ∧
      (way = .bare → f.Misleads way →
        Coordinate.ofPath? path ctx.run.sourceRoot =
          some ⟨f.layer, some (Path.stemOfBase f.file)⟩) := by
  obtain ⟨source, path, hsource, hpath, hcoordinate⟩ := h.exists_path
  refine ⟨source, path, hsource, hpath, fun hway => ⟨?_, ?_⟩, ?_⟩
  · rw [hcoordinate, ofSegments?_ending hway, h.sourceRoot_eq,
      f.ofPath?_of_segments f.segments_path]
  · intro way' statement' hway' h'
    obtain ⟨source', path', hsource', hpath', hcoordinate'⟩ := h'.exists_path
    refine LayerBoundary.verdict_eq_of_coordinates hsource' hsource hpath' hpath ?_
    rw [hcoordinate, hcoordinate', ofSegments?_ending hway, ofSegments?_ending hway']
  · rintro rfl ⟨hfolders, hpoint⟩
    rw [hcoordinate, ending, hfolders]
    exact Coordinate.ofSegments?_last_slice f.sliced hpoint

/-! ## Imports in a shop -/

/-- The only import of the list of a feature. -/
def cartImport (specifier : String) : ImportSite :=
  ImportCycle.shopImport "app/features/cart/list.ts" specifier

theorem verdict_cartImport {specifier path : String} {target : Coordinate}
    (hsource : (cartImport specifier).visit.node.importSource? = some specifier)
    (hpath : resolveImport? specifier "app/features/cart/list.ts" [("~/", "app/")] = some path)
    (htarget : Coordinate.ofPath? path "app" = some target) :
    LayerBoundary.verdict (cartImport specifier).visit.node (cartImport specifier).file =
      let i : LayerBoundary.Import := ⟨⟨.features, some "cart"⟩, target, path, [], .origin⟩
      (LayerBoundary.checkDirection .standard i).map Finding.messageId ++
        (LayerBoundary.checkSlices i).map Finding.messageId := by
  have hcart : (cartImport specifier).file.coordinate = some ⟨.features, some "cart"⟩ := by
    change (cartImport "").file.coordinate = _
    decide +kernel
  exact LayerBoundary.verdict_eq (LayerBoundary.import?_eq_some hcart hsource hpath htarget)

/-- A file in a feature. -/
def modelFile : LayerFile where
  roots := ["app"]
  layer := .features
  folders := ["user"]
  file := "model.ts"
  sliced := Layer.isSliced_features
  names := by decide +kernel
  source := by decide +kernel

theorem imported_alike_model :
    LayerBoundary.verdict (cartImport "../user/model.ts").visit.node
        (cartImport "../user/model.ts").file =
      LayerBoundary.verdict (cartImport "~/features/user/model").visit.node
        (cartImport "~/features/user/model").file := by
  have hbare : modelFile.ImportedBy .bare (cartImport "~/features/user/model").visit.node
      (cartImport "~/features/user/model").file :=
    ⟨by decide +kernel, "~/features/user/model", by decide +kernel,
      .aliased "~/" "app/" (by decide +kernel) (by decide +kernel)⟩
  have hpath : modelFile.ImportedBy .path (cartImport "../user/model.ts").visit.node
      (cartImport "~/features/user/model").file :=
    ⟨by decide +kernel, "../user/model.ts", by decide +kernel,
      .relative ["app", "features", "cart"] "list.ts" (by decide +kernel) (by decide +kernel)
        (by decide +kernel) (by decide +kernel) (by decide +kernel) (by decide +kernel)⟩
  obtain ⟨_, _, _, _, halike, _⟩ := imported_alike hbare
  exact (halike (fun hmisleads => nomatch hmisleads.1)).2 .path _ id hpath

/-- A file directly below a layer. -/
def pricesFile : LayerFile where
  roots := ["app"]
  layer := .features
  folders := []
  file := "prices.ts"
  sliced := Layer.isSliced_features
  names := by decide +kernel
  source := by decide +kernel

/-- The index of a slice with a point in its name. -/
def versionFile : LayerFile where
  roots := ["app"]
  layer := .features
  folders := ["user.v2"]
  file := "index.ts"
  sliced := Layer.isSliced_features
  names := by decide +kernel
  source := by decide +kernel

/-- A file whose source root starts with two points. -/
def pointedFile : LayerFile := { pricesFile with
  roots := ["..app"]
  names := by decide +kernel }

/-- Without its extension a file directly below a layer passes for a slice, and the verdict changes
with the spelling. The folder of an index passes for a file if there is a point in its name. Below a
source root that starts with two points nothing is found relatively. -/
theorem not_imported_alike :
    (Coordinate.ofPath? (Text.join "/" (pricesFile.place .bare)) "app" =
        some ⟨.features, some "prices"⟩ ∧
      Coordinate.ofPath? pricesFile.path "app" = some ⟨.features, none⟩ ∧
      LayerBoundary.verdict (cartImport "~/features/prices").visit.node
        (cartImport "~/features/prices").file = ["crossSliceImport"] ∧
      LayerBoundary.verdict (cartImport "~/features/prices.ts").visit.node
        (cartImport "~/features/prices.ts").file = []) ∧
    (Coordinate.ofPath? (Text.join "/" (versionFile.place .folder)) "app" =
        some ⟨.features, none⟩ ∧
      Coordinate.ofPath? versionFile.path "app" = some ⟨.features, some "user.v2"⟩) ∧
    resolveImport? "./prices.ts" "..app/features/menu.ts" (Config.standardAliases "..app") = none ∧
      Coordinate.ofPath? pointedFile.path "..app" = some ⟨.features, none⟩ := by
  have hslice : Coordinate.ofSegments? [Layer.features.name, "prices"] =
      some ⟨.features, some "prices"⟩ := Coordinate.ofSegments?_last_slice rfl (by decide)
  have hfile : ∀ name, '.' ∈ name.toList →
      Coordinate.ofSegments? [Layer.features.name, name] = some ⟨.features, none⟩ :=
    fun _ => Coordinate.ofSegments?_file
  have hpath : Coordinate.ofPath? "app/features/prices.ts" "app" = some ⟨.features, none⟩ :=
    Coordinate.ofPath?_eq_some_iff.2 ⟨_, by decide +kernel, hfile "prices.ts" (by decide)⟩
  have hbare : Coordinate.ofPath? "app/features/prices" "app" =
      some ⟨.features, some "prices"⟩ :=
    Coordinate.ofPath?_eq_some_iff.2 ⟨_, by decide +kernel, hslice⟩
  refine ⟨⟨hbare, hpath, ?_, ?_⟩, ⟨?_, ?_⟩, ?_, ?_⟩
  · rw [verdict_cartImport (by decide +kernel) (by decide +kernel) hbare]
    decide +kernel
  · rw [verdict_cartImport (by decide +kernel) (by decide +kernel) hpath]
    decide +kernel
  · exact Coordinate.ofPath?_eq_some_iff.2 ⟨_, by decide +kernel, hfile "user.v2" (by decide)⟩
  · decide +kernel
  · decide +kernel
  · exact Coordinate.ofPath?_eq_some_iff.2 ⟨_, by decide +kernel, hfile "prices.ts" (by decide)⟩

end LayerFile

end SliceLint
