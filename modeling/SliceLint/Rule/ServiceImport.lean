import SliceLint.Rule.Basic
import SliceLint.Rule.FileKind
import SliceLint.Rule.ServiceName
import SliceLint.Source.Imports

/-!
# Imports of services and clients

A component takes services and clients from hooks that inject them, and does not import them. A
component of a widget does not import the hooks of a feature either. Types may be imported freely.
-/

namespace SliceLint.ServiceImport

open Text

def info : RuleInfo where
  id := "no-direct-service-imports"
  description := "Prevent direct service imports in React components, suggest DI pattern"
  severity := .error
  messages := [
    ("directServiceImport",
      [.text "Avoid direct service import \"", .gap "service", .text "\". Use DI hook like ",
        .gap "accessor", .text "() instead."]),
    ("directClientImport",
      [.text "Avoid direct client import \"", .gap "client", .text "\". Use DI pattern instead."]),
    ("directFeatureHookImport",
      [.text ("Avoid importing hooks directly from feature layers. " ++
        "Use dependency injection or create abstracted hooks in shared layer.")])]
  severities := []

/-- The module that a statement of a component imports, if the import is to be checked. -/
def checked? (statement : Tree) (relPath : String) : Option String :=
  if !FileKind.isComponent relPath || FileKind.isTest relPath then none
  else
    statement.importSource?.bind fun source =>
      if contains source "react" || statement.importsTypesOnly then none else some source

/-- The coordinate of the module that a specifier names. -/
def target? (source : String) (ctx : FileContext) : Option Coordinate :=
  (resolveImport? source ctx.relPath ctx.run.aliases).bind fun path =>
    Coordinate.ofPath? path ctx.run.sourceRoot

/-- A component of a widget imports hooks of a feature. -/
def checkHooks (place : Position) (source : String) (bindings : List String) (ctx : FileContext) :
    List Finding :=
  if (ctx.coordinate.map Coordinate.layer) == some .widgets &&
      ((target? source ctx).map Coordinate.layer) == some .features &&
      !(hookNames bindings).isEmpty then
    let hooks := join ", " (hookNames bindings)
    [⟨"directFeatureHookImport", place, "Re-export " ++ hooks ++ " through a shared hook",
      [("hooks", .text hooks)]⟩]
  else []

/-- The last segment of a specifier, without its extension. -/
def segment (source : String) : String :=
  Path.stemOfBase (String.ofList (source.toList.reverse.dropWhile (· == '/')).reverse)

/-- How a binding is used once it is injected. -/
def injection (name : String) : String :=
  "const " ++ name ++ " = " ++ ServiceName.accessor name ++ "()"

/-- A service is imported. -/
def checkService (place : Position) (bindings : List String) (segment : String) : List Finding :=
  match ServiceName.flagged? bindings segment "service" with
  | none => []
  | some name =>
    [⟨"directServiceImport", place, injection name,
      [("service", .text name), ("accessor", .text (ServiceName.accessor name))]⟩]

/-- A client is imported. -/
def checkClient (place : Position) (bindings : List String) (segment : String) : List Finding :=
  match ServiceName.flagged? bindings segment "client" with
  | none => []
  | some name =>
    [⟨"directClientImport", place, injection name,
      [("client", .text name), ("accessor", .text (ServiceName.accessor name))]⟩]

/-- The findings of an import statement. -/
def check (statement : Tree) (ctx : FileContext) : List Finding :=
  match checked? statement ctx.relPath with
  | none => []
  | some source =>
    let bindings := statement.importBindings
    checkHooks statement.start source bindings ctx ++
      checkService statement.start bindings (segment source) ++
      checkClient statement.start bindings (segment source)

/-- Imports of services and clients are reported. -/
def rule : Rule := .ofNodes info ["import_statement"] fun v ctx => check v.node ctx

end SliceLint.ServiceImport
