import SliceLint.Path

/-!
# Layers and coordinates

The source tree of a project is split into layers, from pages at the top to the shared layer at
the bottom. Every layer but the shared one is split into slices, one directory each.

**Coordinates** (`Coordinate.ofPath?`). A path below the source root has the coordinate that its
first segments name: the layer, and the slice where the layer has slices. The last segment is no
slice when it is a file name.
-/

namespace SliceLint

/-- A layer of the source tree. -/
inductive Layer where
  | pages
  | widgets
  | features
  | entities
  | shared
deriving DecidableEq, Repr, Inhabited

namespace Layer

def name : Layer → String
  | pages => "pages"
  | widgets => "widgets"
  | features => "features"
  | entities => "entities"
  | shared => "shared"

/-- All layers, from the top to the bottom. -/
def all : List Layer := [pages, widgets, features, entities, shared]

def ofName? (s : String) : Option Layer := all.find? fun l => l.name == s

/-- The layer is split into slices. -/
def isSliced (l : Layer) : Bool := l != shared

end Layer

/-- The place of a file in the layered tree. -/
structure Coordinate where
  layer : Layer
  slice : Option String
deriving DecidableEq, Repr, Inhabited

namespace Coordinate

def text (c : Coordinate) : String :=
  match c.slice with
  | none => c.layer.name
  | some s => c.layer.name ++ "/" ++ s

/-- The coordinate of the segments below the source root. -/
def ofSegments? : List String → Option Coordinate
  | [] => none
  | first :: rest =>
    (Layer.ofName? first).map fun layer =>
      match rest with
      | [] => ⟨layer, none⟩
      | [last] => ⟨layer, if layer.isSliced && !last.contains '.' then some last else none⟩
      | slice :: _ => ⟨layer, if layer.isSliced then some slice else none⟩

/-- The coordinate of a path, if it lies in a layer below the source root. -/
def ofPath? (path sourceRoot : String) : Option Coordinate :=
  let root := Path.segments sourceRoot
  let parts := Path.segments path
  if root.isPrefixOf parts then ofSegments? (parts.drop root.length) else none

end Coordinate

end SliceLint
