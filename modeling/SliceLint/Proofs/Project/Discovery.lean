import SliceLint.Proofs.Config.Reading
import SliceLint.Proofs.Disk.Entry
import SliceLint.Proofs.Path.Spelling
import SliceLint.Proofs.Text.Order

/-!
# Discovered files and the source root

A discovered file lies below the source root: its path is the spelling of the source root with the
names that lead to the file (`exists_names_of_mem_discover`).

**Spellings of the source root** (`placed_alike_iff`). Files are found below the source root as it
is spelled, their coordinates are taken below the source root as it is written, and the prefix `~/`
stands for its normal form. The three go together exactly when the source root is written in its
normal form. With a source root such as `./app` the rules know the place of no file.
-/

namespace SliceLint

/-! ## Paths of discovered files -/

namespace Path

theorem isKept_below {p : String} {names : List String} (hnames : ∀ name ∈ names, IsName name) :
    ∀ seg ∈ spelledSegments p ++ names, IsKept seg :=
  isKept_append_names (fun _ => isKept_of_mem_spelledSegments) hnames

theorem segments_spell {p : String} {names : List String} (hnames : ∀ name ∈ names, IsName name)
    (hne : names ≠ []) :
    segments (spell "" (spelledSegments p ++ names)) = spelledSegments p ++ names :=
  segments_spell_root (Or.inl rfl) (isKept_below hnames) (Or.inr (by simp [hne]))

theorem spelledSegments_spell {p : String} {names : List String}
    (hnames : ∀ name ∈ names, IsName name) :
    spelledSegments (spell "" (spelledSegments p ++ names)) = spelledSegments p ++ names :=
  spelledSegments_spell_root (Or.inl rfl) (isKept_below hnames)

theorem spelledSegments_of_notMem {p : String} (h : "." ∉ segments p) :
    spelledSegments p = segments p := by
  rw [spelledSegments, List.filter_eq_self]
  intro seg hseg
  refine bne_iff_ne.2 ?_
  rintro rfl
  exact h hseg

/-- Spelling a path below its segments drops nothing from them when no segment is `.`. -/
theorem prefix_spelledSegments_iff {p : String} {names : List String}
    (hnames : ∀ name ∈ names, IsName name) :
    segments p <+: spelledSegments p ++ names ↔ "." ∉ segments p := by
  constructor
  · intro hfront hdot
    exact (isKept_below hnames "." (hfront.subset hdot)).ne_dot rfl
  · intro hdot
    rw [spelledSegments_of_notMem hdot]
    exact List.prefix_append _ _

end Path

namespace Selection

variable {d : Disk} {root : String} {c : Config} {files : List String}

theorem exists_entry_of_discover (h : (discover d root c).value = .ok files) :
    ∃ e, d.entry (Path.below root c.sourceRoot) = .ok e ∧
      files = included c (sources d root c.sourceRoot e) := by
  simp only [discover] at h
  split at h
  · cases h
  · rename_i e _ hentry
    exact ⟨e, hentry, (Except.ok.inj h).symm⟩
  · cases h

theorem exists_names_of_mem_discover (hd : d.root.WellNamed)
    (h : (discover d root c).value = .ok files) {file : String} (hfile : file ∈ files) :
    ∃ names, names ≠ [] ∧ (∀ name ∈ names, Path.IsName name) ∧
      file = Path.spell "" (Path.spelledSegments c.sourceRoot ++ names) := by
  obtain ⟨e, hentry, rfl⟩ := exists_entry_of_discover h
  have hsource := (List.mem_filter.1 (Text.mem_sorted.1 hfile)).1
  obtain ⟨names, hnames, rfl⟩ := List.mem_map.1 hsource
  have hwalk := (List.mem_filter.1 hnames).1
  have he := Disk.wellNamed_entry hd hentry
  exact ⟨names, Entry.ne_nil_of_mem_walk hwalk, he.isName_of_mem_walk hwalk, rfl⟩

end Selection

/-! ## The three readings of the source root -/

section Readings

variable {sourceRoot : String} {layer : Layer} {slice : String} {rest : List String}

/-- A file found below the source root has its coordinate when no segment of the source root
is `.`. -/
theorem Coordinate.ofPath?_spell_iff (hlayer : layer.isSliced) (hrest : rest ≠ [])
    (hnames : ∀ name ∈ layer.name :: slice :: rest, Path.IsName name) :
    ofPath? (Path.spell "" (Path.spelledSegments sourceRoot ++ layer.name :: slice :: rest))
        sourceRoot = some ⟨layer, some slice⟩ ↔
      "." ∉ Path.segments sourceRoot := by
  have hsegs := Path.segments_spell (p := sourceRoot) hnames (List.cons_ne_nil _ _)
  rw [← Path.prefix_spelledSegments_iff hnames]
  constructor
  · intro h
    obtain ⟨names, hpath, -⟩ := ofPath?_eq_some_iff.1 h
    exact ⟨names, hpath.symm.trans hsegs⟩
  · intro hfront
    have hdot := (Path.prefix_spelledSegments_iff hnames).1 hfront
    refine ofPath?_of_segments hlayer hrest (hsegs.trans ?_)
    rw [Path.spelledSegments_of_notMem hdot]

/-- The path that `~/` leads to has its coordinate when the source root is in its normal form. -/
theorem Coordinate.ofPath?_normalize_iff (hroot : Path.IsTrimmed sourceRoot)
    (hlayer : layer.isSliced) (hrest : rest ≠ [])
    (hnames : ∀ name ∈ layer.name :: slice :: rest, Path.IsName name) :
    ofPath? (Path.normalize
        (sourceRoot ++ "/" ++ Text.join "/" (layer.name :: slice :: rest))) sourceRoot =
        some ⟨layer, some slice⟩ ↔
      Path.IsNormal (Path.segments sourceRoot) := by
  have hsegs := Path.segments_normalize_below hroot hnames (List.cons_ne_nil _ _)
  constructor
  · intro h
    obtain ⟨names, hpath, -⟩ := ofPath?_eq_some_iff.1 h
    have hleft : Path.IsNormal (Path.normalSegments false (Path.segments sourceRoot)) :=
      Path.isNormal_normalSegments fun seg hseg =>
        Path.notMem_of_mem_pieces (List.mem_filter.1 hseg).1
    have hnormal := hleft.append_names hnames
    rw [← hsegs, hpath] at hnormal
    exact hnormal.of_append
  · intro hnormal
    refine ofPath?_of_segments hlayer hrest (hsegs.trans ?_)
    rw [Path.normalSegments_of_isNormal hnormal]

end Readings

/-- **Spellings of the source root.** In a project whose configuration names no aliases, take a
discovered file in a slice. The file has the coordinate of the slice, and the specifier that names
it from the source root leads to that coordinate as well, exactly when the segments of the source
root are normal. -/
theorem placed_alike_iff {v : Value} {c : Config} {d : Disk} {root : String} {files : List String}
    {file importer slice : String} {layer : Layer} {rest : List String}
    (hc : Config.ofValue v = .ok c) (haliases : v.section? "aliases" = none)
    (hd : d.root.WellNamed) (hfiles : (Selection.discover d root c).value = .ok files)
    (hfile : file ∈ files) (hlayer : layer.isSliced) (hrest : rest ≠ [])
    (hplace : Path.spelledSegments file =
      Path.spelledSegments c.sourceRoot ++ layer.name :: slice :: rest) :
    (Coordinate.ofPath? file c.sourceRoot = some ⟨layer, some slice⟩ ∧
      ∃ path, resolveImport? ("~/" ++ Text.join "/" (layer.name :: slice :: rest)) importer
          c.aliases = some path ∧
        Coordinate.ofPath? path c.sourceRoot = some ⟨layer, some slice⟩) ↔
      Path.IsNormal (Path.segments c.sourceRoot) := by
  have hread := Config.readFrom_of_ofValue hc
  obtain ⟨names, hne, hnames, rfl⟩ := Selection.exists_names_of_mem_discover hd hfiles hfile
  rw [Path.spelledSegments_spell hnames, List.append_cancel_left_eq] at hplace
  subst hplace
  rw [hread.aliases_eq haliases, resolveImport?_standardAliases hread.isTrimmed,
    Coordinate.ofPath?_spell_iff hlayer hrest hnames]
  simp only [Option.some.injEq, exists_eq_left',
    Coordinate.ofPath?_normalize_iff hread.isTrimmed hlayer hrest hnames]
  exact and_iff_right_of_imp fun hnormal => hnormal.dot_notMem

/-! ## One project, two spellings -/

/-- The folders on a way, one in another, with a file at its end. -/
def Entry.chain (bytes : List UInt8) : List String → Entry
  | [] => .file bytes
  | name :: rest => .folder [(name, chain bytes rest)]

theorem Entry.wellNamed_chain (bytes : List UInt8) {names : List String}
    (h : ∀ name ∈ names, Path.IsName name) : (chain bytes names).WellNamed := by
  induction names with
  | nil => exact .file bytes
  | cons name names ih =>
    obtain ⟨hname, hnames⟩ := List.forall_mem_cons.1 h
    refine .folder ?_ ?_
    · intro name' e hmem
      cases List.mem_singleton.1 hmem
      exact hname
    · intro name' e hmem
      cases List.mem_singleton.1 hmem
      exact ih hnames

theorem Entry.hasDistinctNames_chain (bytes : List UInt8) (names : List String) :
    (chain bytes names).HasDistinctNames := by
  induction names with
  | nil => exact .file bytes
  | cons name names ih =>
    refine .folder (List.nodup_singleton name) ?_
    intro name' e hmem
    cases List.mem_singleton.1 hmem
    exact ih

/-- A shop with one file in the slice of its cart. -/
def Shop.disk : Disk where
  root := .folder
    [("app", .folder [("features", .folder [("cart", .folder [("list.ts", .file [])])])])]
  here := "/"

/-- A configuration that asks each feature for these files. -/
def Shop.asking (names : List String) : Config :=
  { Config.standard with
    rules := [(.sliceBaseline, ⟨none, [("files", .list (names.map Value.text))]⟩)] }

/-- A configuration that names the source root and nothing else. -/
def Shop.rooted (sourceRoot : String) : Value :=
  .mapping [(.text "source_root", .text sourceRoot)]

theorem Shop.disk_root : disk.root = Entry.chain [] ["app", "features", "cart", "list.ts"] := rfl

theorem Shop.wellNamed_disk : disk.root.WellNamed :=
  disk_root ▸ Entry.wellNamed_chain [] (by decide)

theorem Shop.hasDistinctNames_disk : disk.root.HasDistinctNames :=
  disk_root ▸ Entry.hasDistinctNames_chain [] _

/-- Written as `app`, the source root leads to the cart in every reading. -/
theorem placed_alike_app :
    Coordinate.ofPath? "app/features/cart/list.ts" "app" = some ⟨.features, some "cart"⟩ ∧
      ∃ path, resolveImport? "~/features/cart/list.ts" "app/root.ts"
          (Config.standardAliases "app") = some path ∧
        Coordinate.ofPath? path "app" = some ⟨.features, some "cart"⟩ := by
  have hconfig : Config.ofValue (Shop.rooted "app") = .ok .standard := rfl
  have hfiles : (Selection.discover Shop.disk "/" .standard).value =
      .ok ["app/features/cart/list.ts"] := by decide +kernel
  have hplace : Path.spelledSegments "app/features/cart/list.ts" =
      Path.spelledSegments "app" ++ Layer.features.name :: "cart" :: ["list.ts"] := by
    decide +kernel
  have hnormal : Path.IsNormal (Path.segments "app") := by decide +kernel
  exact (placed_alike_iff hconfig rfl Shop.wellNamed_disk hfiles (List.mem_singleton_self _)
    rfl (List.cons_ne_nil _ _) hplace).2 hnormal

/-- Written as `./app`, the same folder leads to the same file, and the file has no coordinate. -/
theorem not_placed_alike_dot_app :
    ∃ c files, Config.ofValue (Shop.rooted "./app") = .ok c ∧
      (Shop.rooted "./app").section? "aliases" = none ∧
      (Selection.discover Shop.disk "/" c).value = .ok files ∧
      "app/features/cart/list.ts" ∈ files ∧
      Path.spelledSegments "app/features/cart/list.ts" =
        Path.spelledSegments c.sourceRoot ++ Layer.features.name :: "cart" :: ["list.ts"] ∧
      Coordinate.ofPath? "app/features/cart/list.ts" c.sourceRoot = none ∧
      (resolveImport? "~/features/cart/list.ts" "app/root.ts" c.aliases).bind
        (fun path => Coordinate.ofPath? path c.sourceRoot) = none := by
  refine ⟨{ Config.standard with sourceRoot := "./app", aliases := Config.standardAliases "./app" },
    ["app/features/cart/list.ts"], rfl, rfl, ?_⟩
  decide +kernel

end SliceLint
