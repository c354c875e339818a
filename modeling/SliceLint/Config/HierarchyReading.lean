import SliceLint.Document.Display
import SliceLint.Hierarchy
import SliceLint.Text.Order

/-!
# Reading a hierarchy

A hierarchy is a mapping from each of the layers to the list of layers it may import from. Every
layer has an entry, a list without entry is empty, and a layer listed twice counts once. A cycle
between different layers is refused.
-/

namespace SliceLint

/-- Why a document is no hierarchy. -/
inductive HierarchyFault where
  | notMapping
  | unknownLayer (name : String)
  | targetsNotList (layer : Layer)
  | unknownTarget (layer : Layer) (name : String)
  | missing (layers : List Layer)
  | cycle (names : List String)
deriving DecidableEq, Repr

namespace HierarchyFault

def layerList : String := Text.quotedList (Layer.all.map Layer.name)

def message : HierarchyFault → String
  | notMapping => "layers must be a mapping of layer -> list of allowed layers"
  | unknownLayer name => "layers: unknown layer '" ++ name ++ "', must be one of " ++ layerList
  | targetsNotList layer => "layers." ++ layer.name ++ ": allowed layers must be a list"
  | unknownTarget layer name =>
    "layers." ++ layer.name ++ ": unknown layer '" ++ name ++ "', must be one of " ++ layerList
  | missing layers =>
    "layers: missing definitions for " ++ Text.quotedList (layers.map Layer.name)
  | cycle names => "layers: dependency cycle " ++ " -> ".intercalate names

end HierarchyFault

namespace Hierarchy

/-- Read the name of a layer that a layer may import from. -/
def readTarget (layer : Layer) (v : Value) : Except HierarchyFault Layer :=
  match Layer.ofName? v.plain with
  | some target => .ok target
  | none => .error (.unknownTarget layer v.plain)

/-- Read the layers that a layer may import from. -/
def readTargets (layer : Layer) : Value → Except HierarchyFault (List Layer)
  | .null => .ok []
  | .list items => (items.mapM (readTarget layer)).map Text.distinct
  | _ => .error (.targetsNotList layer)

/-- Read the entry of a layer. -/
def readEntry (entry : Value × Value) : Except HierarchyFault (Layer × List Layer) :=
  match Layer.ofName? entry.1.plain with
  | none => .error (.unknownLayer entry.1.plain)
  | some layer => (readTargets layer entry.2).map fun targets => (layer, targets)

/-- Put an entry into a table; an entry that is there keeps its place. -/
def put (table : List (Layer × List Layer)) (entry : Layer × List Layer) :
    List (Layer × List Layer) :=
  match table with
  | [] => [entry]
  | (l, ts) :: rest => if l == entry.1 then entry :: rest else (l, ts) :: put rest entry

/-- Accept a hierarchy that has every layer and no cycle. -/
def checked (h : Hierarchy) : Except HierarchyFault Hierarchy :=
  match Layer.all.filter fun l => !(h.table.map (·.1)).contains l with
  | [] =>
    match h.graph.findCycle with
    | some names => .error (.cycle names)
    | none => .ok h
  | missing => .error (.missing missing)

/-- Read a hierarchy. -/
def ofValue : Value → Except HierarchyFault Hierarchy
  | .mapping entries => do
    let table ← entries.mapM readEntry
    checked ⟨table.foldl put []⟩
  | _ => .error .notMapping

end Hierarchy

end SliceLint
