import SliceLint.Layer

/-!
# Cycles and hierarchies

**Cycles** (`findCycle`). A depth-first search through a finite graph for a cycle through at least
two nodes; an edge from a node to itself does not count. The answer starts and ends with the same
node.

**Hierarchies.** A table that says for each layer which layers it may import from.
-/

namespace SliceLint

/-! ## Cycles -/

/-- A finite graph: nodes with the targets of their edges. -/
abbrev Graph := List (String × List String)

namespace Graph

def targets (g : Graph) (node : String) : List String := (g.lookup node).getD []

/-- The cycle closed by an edge back to a node of the path, which starts with the latest node. -/
def closed (path : List String) (target : String) : List String :=
  (target :: (path.takeWhile (· != target)) ++ [target]).reverse

/-- Search from a node, nesting at most so deep; either a cycle, or the nodes finished. -/
def visit (g : Graph) : Nat → List String → List String → String → Except (List String) (List String)
  | 0, _, done, _ => .ok done
  | n + 1, path, done, node => do
    let path := node :: path
    let finished ← (g.targets node).foldlM (fun done target =>
      if target == node || done.contains target then .ok done
      else if path.contains target then .error (closed path target)
      else visit g n path done target) done
    return node :: finished

/-- The number of nodes, each target counted as one. -/
def bound (g : Graph) : Nat := g.foldl (fun n (_, ts) => n + 1 + ts.length) 0

/-- A cycle through at least two nodes; the search starts from the nodes in the order of their
names. -/
def findCycle (g : Graph) : Option (List String) :=
  let roots := (g.map (·.1)).mergeSort fun a b => decide (a ≤ b)
  let search := roots.foldlM (fun done root =>
    if done.contains root then .ok done else visit g (g.bound + 1) [] done root) []
  match search with
  | .ok _ => none
  | .error cycle => some cycle

end Graph

/-! ## Hierarchies -/

/-- Which layers each layer may import from, in written order. -/
structure Hierarchy where
  table : List (Layer × List Layer)
deriving DecidableEq, Repr, Inhabited

namespace Hierarchy

/-- The layers a layer may import from. -/
def targets (h : Hierarchy) (l : Layer) : List Layer := (h.table.lookup l).getD []

/-- One layer may import from another. -/
def allows (h : Hierarchy) (source target : Layer) : Bool := (h.targets source).contains target

/-- The hierarchy as a graph of layer names. -/
def graph (h : Hierarchy) : Graph := h.table.map fun (l, ts) => (l.name, ts.map Layer.name)

/-- Each layer may import from those below it, and the shared layer from itself. -/
def standard : Hierarchy :=
  ⟨[(.pages, [.widgets, .features, .entities, .shared]), (.widgets, [.features, .entities, .shared]),
    (.features, [.entities, .shared]), (.entities, [.shared]), (.shared, [.shared])]⟩

end Hierarchy

end SliceLint
