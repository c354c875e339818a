import SliceLint.Rule.LayerBoundary

/-!
# The messages of the rule on layers

The findings of an import differ in wording with the names it connects. Their messages depend on
less: on the coordinates of both sides, on whether a hook is bound, and on the markers in both
paths.

**Paths** (`messageIds_of_same_path`). Imports that are resolved to one path and bind the same names
have the same messages.

**Verdict** (`verdict`). The messages about the direction of an import and about the slices it
connects. They depend on the two coordinates alone (`verdict_congr`), and so not on how the import
is spelled (`verdict_eq_of_coordinates`).
-/

namespace SliceLint.LayerBoundary

/-- The path that a statement imports, if its specifier names one. -/
def path? (statement : Tree) (ctx : FileContext) : Option String :=
  statement.importSource?.bind fun source => resolveImport? source ctx.relPath ctx.run.aliases

/-- The messages of the findings of a statement, in order. -/
def messageIds (statement : Tree) (ctx : FileContext) : List String :=
  (check statement ctx).map Finding.messageId

/-- The import connects two different slices. -/
def Import.crosses (i : Import) : Bool :=
  i.importer.slice.isSome && i.target.slice.isSome && i.importer.slice != i.target.slice

/-- The messages that say where an import may lead. -/
def verdictIds : List String := ["invalidLayerImport", "crossSliceImport"]

/-- The messages about the direction of an import and about the slices it connects. -/
def verdict (statement : Tree) (ctx : FileContext) : List String :=
  (messageIds statement ctx).filter verdictIds.contains

/-! ## One check after the other -/

section Checks

variable (i : Import)

theorem messageIds_checkHooks : (checkHooks i).map Finding.messageId =
    if i.importer.layer == .widgets && i.target.layer == .features && !i.hooks.isEmpty then
      ["widgetImportingFromFeature"] else [] := by
  rw [checkHooks]
  split <;> rfl

theorem messageIds_checkDirection (h : Hierarchy) : (checkDirection h i).map Finding.messageId =
    if i.importer.layer != i.target.layer && !h.allows i.importer.layer i.target.layer then
      ["invalidLayerImport"] else [] := by
  rw [checkDirection]
  split <;> rfl

theorem messageIds_checkSlices : (checkSlices i).map Finding.messageId =
    if i.importer.layer == i.target.layer && i.importer.layer != .shared && i.crosses then
      ["crossSliceImport"] else [] := by
  rw [checkSlices, Import.crosses]
  cases i.importer.slice with
  | none => simp
  | some own =>
    cases i.target.slice with
    | none => simp
    | some other =>
      have hcrosses : ((some own).isSome && (some other).isSome && some own != some other) =
          (own != other) := by simp [bne]
      simp only [hcrosses]
      split <;> rfl

theorem messageIds_checkInterface (relPath : String) :
    (checkInterface relPath i).map Finding.messageId =
      if FileKind.inUi relPath && FileKind.mentionsApi i.targetPath then
        ["directApiImportInUI"] else [] := by
  rw [checkInterface]
  split <;> rfl

theorem messageIds_checkServer (relPath : String) :
    (checkServer relPath i).map Finding.messageId =
      if FileKind.mentionsApi relPath && FileKind.inUi i.targetPath then
        ["uiImportInApi"] else [] := by
  rw [checkServer]
  split <;> rfl

end Checks

/-! ## All checks -/

variable {statement : Tree} {ctx : FileContext} {i : Import}

theorem messageIds_eq (h : import? statement ctx = some i) : messageIds statement ctx =
    (checkHooks i).map Finding.messageId ++
      (checkDirection ctx.run.hierarchy i).map Finding.messageId ++
      (checkSlices i).map Finding.messageId ++
      (checkInterface ctx.relPath i).map Finding.messageId ++
      (checkServer ctx.relPath i).map Finding.messageId := by
  simp only [messageIds, check, h, List.map_append]

theorem messageIds_of_no_import (h : import? statement ctx = none) :
    messageIds statement ctx = [] := by
  simp only [messageIds, check, h, List.map_nil]

theorem import?_eq_some {importer target : Coordinate} {source path : String}
    (hfile : ctx.coordinate = some importer) (hsource : statement.importSource? = some source)
    (hpath : resolveImport? source ctx.relPath ctx.run.aliases = some path)
    (htarget : Coordinate.ofPath? path ctx.run.sourceRoot = some target) : import? statement ctx =
      some ⟨importer, target, path, hookNames statement.importBindings, statement.start⟩ := by
  simp [import?, hfile, hsource, hpath, htarget]

theorem import?_eq_some_iff : import? statement ctx = some i ↔
    ctx.coordinate = some i.importer ∧ path? statement ctx = some i.targetPath ∧
      Coordinate.ofPath? i.targetPath ctx.run.sourceRoot = some i.target ∧
      i.hooks = hookNames statement.importBindings ∧ i.place = statement.start := by
  obtain ⟨importer, target, targetPath, hooks, place⟩ := i
  simp only [import?, path?, Option.bind_eq_bind, Option.bind_eq_some_iff, Option.pure_def,
    Option.some.injEq, Import.mk.injEq]
  constructor
  · rintro ⟨_, hfile, source, hsource, _, hpath, _, htarget, rfl, rfl, rfl, rfl, rfl⟩
    exact ⟨hfile, ⟨source, hsource, hpath⟩, htarget, rfl, rfl⟩
  · rintro ⟨hfile, ⟨source, hsource, hpath⟩, htarget, rfl, rfl⟩
    exact ⟨_, hfile, source, hsource, _, hpath, _, htarget, rfl, rfl, rfl, rfl, rfl⟩

/-- Imports of one path differ in what they bind. -/
theorem import?_of_same_path {statement' : Tree}
    (hpath : path? statement' ctx = path? statement ctx) : import? statement' ctx =
      (import? statement ctx).map fun i =>
        { i with hooks := hookNames statement'.importBindings, place := statement'.start } := by
  ext i
  rw [Option.map_eq_some_iff, import?_eq_some_iff, hpath]
  constructor
  · rintro ⟨hfile, hpath, htarget, hhooks, hplace⟩
    refine ⟨⟨i.importer, i.target, i.targetPath, hookNames statement.importBindings,
      statement.start⟩, import?_eq_some_iff.2 ⟨hfile, hpath, htarget, rfl, rfl⟩, ?_⟩
    rw [← hhooks, ← hplace]
  · rintro ⟨i, hi, rfl⟩
    obtain ⟨hfile, hpath, htarget, -, -⟩ := import?_eq_some_iff.1 hi
    exact ⟨hfile, hpath, htarget, rfl, rfl⟩

theorem messageIds_of_same_path {statement' : Tree}
    (hpath : path? statement' ctx = path? statement ctx)
    (hbindings : statement'.importBindings = statement.importBindings) :
    messageIds statement' ctx = messageIds statement ctx := by
  have himport := import?_of_same_path hpath
  cases hi : import? statement ctx with
  | none =>
    rw [hi] at himport
    rw [messageIds_of_no_import hi, messageIds_of_no_import himport]
  | some i =>
    obtain ⟨-, -, -, hhooks, -⟩ := import?_eq_some_iff.1 hi
    rw [hi, hbindings, ← hhooks] at himport
    rw [messageIds_eq hi, messageIds_eq himport]
    simp only [messageIds_checkHooks, messageIds_checkDirection, messageIds_checkSlices,
      messageIds_checkInterface, messageIds_checkServer, Import.crosses]
    rfl

/-! ## Some messages among all -/

theorem filter_ite_singleton (p : String → Bool) (c : Bool) (id : String) :
    (if c then [id] else []).filter p = if p id then (if c then [id] else []) else [] := by
  cases c <;> cases h : p id <;> simp [h]

theorem filter_messageIds (p : String → Bool) (h : import? statement ctx = some i) :
    (messageIds statement ctx).filter p =
      (if p "widgetImportingFromFeature" then (checkHooks i).map Finding.messageId else []) ++
      (if p "invalidLayerImport" then
        (checkDirection ctx.run.hierarchy i).map Finding.messageId else []) ++
      (if p "crossSliceImport" then (checkSlices i).map Finding.messageId else []) ++
      (if p "directApiImportInUI" then
        (checkInterface ctx.relPath i).map Finding.messageId else []) ++
      (if p "uiImportInApi" then (checkServer ctx.relPath i).map Finding.messageId else []) := by
  simp only [messageIds_eq h, messageIds_checkHooks, messageIds_checkDirection,
    messageIds_checkSlices, messageIds_checkInterface, messageIds_checkServer, List.filter_append,
    filter_ite_singleton]

/-! ## The verdict -/

theorem verdict_eq (h : import? statement ctx = some i) : verdict statement ctx =
    (checkDirection ctx.run.hierarchy i).map Finding.messageId ++
      (checkSlices i).map Finding.messageId := by
  rw [verdict, filter_messageIds _ h, if_neg (by decide), if_pos (by decide), if_pos (by decide),
    if_neg (by decide), if_neg (by decide), List.nil_append, List.append_nil, List.append_nil]

theorem verdict_congr {statement' : Tree} {ctx' : FileContext} {i' : Import}
    (h : import? statement ctx = some i) (h' : import? statement' ctx' = some i')
    (hhierarchy : ctx.run.hierarchy = ctx'.run.hierarchy) (himporter : i.importer = i'.importer)
    (htarget : i.target = i'.target) : verdict statement ctx = verdict statement' ctx' := by
  rw [verdict_eq h, verdict_eq h', messageIds_checkDirection, messageIds_checkDirection,
    messageIds_checkSlices, messageIds_checkSlices, Import.crosses, Import.crosses, hhierarchy,
    himporter, htarget]

/-- Two imports of one file have the same verdict when their targets have the same coordinate, or
both none. -/
theorem verdict_eq_of_coordinates {statement' : Tree} {source source' path path' : String}
    (hsource : statement.importSource? = some source)
    (hsource' : statement'.importSource? = some source')
    (hpath : resolveImport? source ctx.relPath ctx.run.aliases = some path)
    (hpath' : resolveImport? source' ctx.relPath ctx.run.aliases = some path')
    (h : Coordinate.ofPath? path ctx.run.sourceRoot =
      Coordinate.ofPath? path' ctx.run.sourceRoot) :
    verdict statement ctx = verdict statement' ctx := by
  cases hfile : ctx.coordinate with
  | none =>
    have hnone : ∀ st : Tree, import? st ctx = none := fun st => by simp [import?, hfile]
    rw [verdict, verdict, messageIds_of_no_import (hnone _), messageIds_of_no_import (hnone _)]
  | some importer =>
    cases htarget : Coordinate.ofPath? path' ctx.run.sourceRoot with
    | none =>
      have hnone : import? statement ctx = none := by simp [import?, hsource, hpath, h, htarget]
      have hnone' : import? statement' ctx = none := by simp [import?, hsource', hpath', htarget]
      rw [verdict, verdict, messageIds_of_no_import hnone, messageIds_of_no_import hnone']
    | some target =>
      exact verdict_congr (import?_eq_some hfile hsource hpath (h.trans htarget))
        (import?_eq_some hfile hsource' hpath' htarget) rfl rfl rfl

end SliceLint.LayerBoundary
