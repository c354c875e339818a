import SliceLint.Rule.Basic
import SliceLint.Rule.FileKind
import SliceLint.Source.Imports

/-!
# The shape of component files

A component file of the user interface has no more lines than allowed, and no file has more than
one default export. Test files may do as they like.
-/

namespace SliceLint.ComponentShape

def info : RuleInfo where
  id := "limit-component-lines"
  description := "Limit component files to 200 lines and single default export"
  severity := .warning
  messages := [
    ("tooManyLines",
      [.text "Component file exceeds ", .gap "maxLines", .text " lines (", .gap "lines",
        .text "). Split into smaller components."]),
    ("multipleDefaultExports",
      [.text ("Component file has multiple default exports. " ++
        "Each file should export exactly one component.")])]
  severities := []

/-- The most lines a component has unless configured otherwise. -/
def standardLimit : Nat := 200

/-- The key under which default exports are counted. -/
def exportsKey : String := "default_exports"

/-- Count a default export; from the second on it is reported. -/
def onNode (v : Visit) (ctx : FileContext) (s : Counters) : Response :=
  if !v.node.exportsDefault || FileKind.isTest ctx.relPath then (.ok [], s)
  else
    let s := s.increment exportsKey
    if s.get exportsKey > 1 then
      (.ok [⟨"multipleDefaultExports", v.node.start, "export \x7b Name \x7d", []⟩], s)
    else (.ok [], s)

/-- The file is a component of the user interface, and no test. -/
def isLimited (relPath : String) : Bool :=
  FileKind.inUi relPath && FileKind.isComponent relPath && !FileKind.isTest relPath

/-- The finding for a file with too many lines. -/
def checkLines (limit : Nat) (ctx : FileContext) : List Finding :=
  let lines := ctx.lines.length
  if isLimited ctx.relPath && lines > limit then
    [⟨"tooManyLines", .origin, "Extract sub-components into sibling files",
      [("lines", .number lines), ("maxLines", .number limit)]⟩]
  else []

/-- Long components and repeated default exports are reported. -/
def rule (limit : Nat) : Rule where
  info := info
  kinds := ["export_statement"]
  onNode := onNode
  onExit := fun ctx s => (.ok (checkLines limit ctx), s.clear exportsKey)
  onUnparsed? := none

end SliceLint.ComponentShape
