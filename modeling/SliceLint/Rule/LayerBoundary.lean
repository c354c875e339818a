import SliceLint.Rule.Basic
import SliceLint.Rule.FileKind
import SliceLint.Source.Imports

/-!
# Boundaries between layers and slices

Every import that leads into the layered tree is checked. A layer may import only from the layers
that the hierarchy allows, and a slice not from another slice of its layer. A widget takes no hooks
from a feature, the user interface does not reach the server by itself, and what reaches the server
does not know the user interface. The checks do not exclude each other.
-/

namespace SliceLint.LayerBoundary

open Text

def info : RuleInfo where
  id := "enforce-fsd-layer-boundaries"
  description := "Enforce proper import boundaries between FSD layers"
  severity := .error
  messages := [
    ("invalidLayerImport",
      [.text "Layer \"", .gap "fromLayer", .text "\" cannot import from \"", .gap "toLayer",
        .text "\". Allowed imports: ", .gap "allowedLayers"]),
    ("crossSliceImport",
      [.text "Slice \"", .gap "fromSlice", .text "\" cannot import from slice \"", .gap "toSlice",
        .text "\" on the same layer \"", .gap "layer", .text "\""]),
    ("directApiImportInUI",
      [.text "UI component should not directly import from API layer. Use hooks instead."]),
    ("uiImportInApi", [.text "API layer should not import UI components"]),
    ("widgetImportingFromFeature",
      [.text ("Widget layer cannot import hooks/services from feature layer. " ++
        "Create abstracted hooks in shared layer instead.")])]
  severities := []

/-- An import into the layered tree: where it comes from, where it leads, and what it binds. -/
structure Import where
  importer : Coordinate
  target : Coordinate
  targetPath : String
  hooks : List String
  place : Position

/-- The import that a statement makes, if it leads from the layered tree into it. -/
def import? (statement : Tree) (ctx : FileContext) : Option Import := do
  let importer ← ctx.coordinate
  let source ← statement.importSource?
  let path ← resolveImport? source ctx.relPath ctx.run.aliases
  let target ← Coordinate.ofPath? path ctx.run.sourceRoot
  return ⟨importer, target, path, hookNames statement.importBindings, statement.start⟩

/-- A widget takes hooks from a feature. -/
def checkHooks (i : Import) : List Finding :=
  if i.importer.layer == .widgets && i.target.layer == .features && !i.hooks.isEmpty then
    let hooks := join ", " i.hooks
    [⟨"widgetImportingFromFeature", i.place, "Wrap " ++ hooks ++ " in a hook under shared/lib",
      [("fromLayer", .text i.importer.layer.name), ("toLayer", .text i.target.layer.name),
        ("hooks", .text hooks)]⟩]
  else []

/-- The hierarchy does not allow the direction. -/
def checkDirection (h : Hierarchy) (i : Import) : List Finding :=
  if i.importer.layer != i.target.layer && !h.allows i.importer.layer i.target.layer then
    let allowed := join ", " ((h.targets i.importer.layer).map Layer.name)
    let suggestion :=
      if allowed == "" then "" else "Move the imported code into one of: " ++ allowed
    [⟨"invalidLayerImport", i.place, suggestion,
      [("fromLayer", .text i.importer.layer.name), ("toLayer", .text i.target.layer.name),
        ("allowedLayers", .text (if allowed == "" then "none" else allowed))]⟩]
  else []

/-- The import leads into another slice of the same layer. -/
def checkSlices (i : Import) : List Finding :=
  match i.importer.slice, i.target.slice with
  | some own, some other =>
    if i.importer.layer == i.target.layer && i.importer.layer != .shared && own != other then
      [⟨"crossSliceImport", i.place,
        "Compose " ++ own ++ " and " ++ other ++ " in a higher layer",
        [("fromSlice", .text own), ("toSlice", .text other),
          ("layer", .text i.importer.layer.name)]⟩]
    else []
  | _, _ => []

/-- The user interface reaches the server by itself. -/
def checkInterface (relPath : String) (i : Import) : List Finding :=
  if FileKind.inUi relPath && FileKind.mentionsApi i.targetPath then
    [⟨"directApiImportInUI", i.place, "Import a hook from hooks.ts", []⟩]
  else []

/-- What reaches the server knows the user interface. -/
def checkServer (relPath : String) (i : Import) : List Finding :=
  if FileKind.mentionsApi relPath && FileKind.inUi i.targetPath then
    [⟨"uiImportInApi", i.place, "", []⟩]
  else []

/-- The findings of an import statement. -/
def check (statement : Tree) (ctx : FileContext) : List Finding :=
  match import? statement ctx with
  | none => []
  | some i =>
    checkHooks i ++ checkDirection ctx.run.hierarchy i ++ checkSlices i ++
      checkInterface ctx.relPath i ++ checkServer ctx.relPath i

/-- Imports across boundaries are reported. -/
def rule : Rule := .ofNodes info ["import_statement"] fun v ctx => check v.node ctx

end SliceLint.LayerBoundary
