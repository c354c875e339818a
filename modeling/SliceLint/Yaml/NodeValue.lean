import SliceLint.Yaml.Node
import SliceLint.Yaml.ScalarValue

/-!
# Values of documents

**Merging.** The key `<<` takes in the entries of the mapping, or of the mappings in the sequence,
that it leads to. Merged entries come before the others, so that these prevail; of several merged
mappings the first prevails.

**Faults.** A document may have several faults. The one nearest to the root counts, and of those
the first. A scalar is judged with the collection that holds it, a collection one step deeper.
-/

namespace SliceLint.Yaml

/-- A value, or a fault with its depth. -/
abbrev Attempt (α : Type) := Except (Nat × ValueFault) α

namespace Attempt

/-- Two values, or the fault that counts. -/
def pair {α β : Type} (x : Attempt α) (y : Attempt β) : Attempt (α × β) :=
  match x, y with
  | .ok a, .ok b => .ok (a, b)
  | .error e, .ok _ => .error e
  | .ok _, .error f => .error f
  | .error e, .error f => .error (if f.1 < e.1 then f else e)

/-- All values, or the fault that counts. -/
def all {α : Type} : List (Attempt α) → Attempt (List α)
  | [] => .ok []
  | x :: xs => (pair x (all xs)).map fun (a, as) => a :: as

end Attempt

namespace Node

/-- The tag of a node. -/
def tag : Node → Tag
  | scalar t _ => t
  | sequence t _ => t
  | mapping t _ => t

mutual

/-- The text of a scalar. A mapping with the key `=` counts as the scalar behind it. -/
def scalarText? : Node → Option String
  | scalar _ text => some text
  | sequence _ _ => none
  | mapping _ entries => scalarTextIn? entries

/-- The text of the scalar behind the key `=`. -/
def scalarTextIn? : List (Node × Node) → Option String
  | [] => none
  | (k, v) :: rest => if k.tag = .value then scalarText? v else scalarTextIn? rest

end

/-! ## Merging -/

/-- The entries of a mapping that merge nothing. -/
def ownEntries (entries : List (Node × Node)) : List (Node × Node) :=
  entries.filter fun (k, _) => k.tag != .merge

mutual

/-- The entries that a node gives when it is merged. -/
def mergedFrom? : Node → Option (List (Node × Node))
  | scalar _ _ => none
  | sequence _ items => mergedItems? items
  | mapping _ entries => (mergedEntries? entries).map (· ++ ownEntries entries)

/-- The entries of several mappings, those of the last mapping first. -/
def mergedItems? : List Node → Option (List (Node × Node))
  | [] => some []
  | mapping _ entries :: rest => do
    let first ← mergedEntries? entries
    let others ← mergedItems? rest
    return others ++ first ++ ownEntries entries
  | _ :: _ => none

/-- The entries that a mapping takes in. -/
def mergedEntries? : List (Node × Node) → Option (List (Node × Node))
  | [] => some []
  | (k, v) :: rest =>
    if k.tag = .merge then do
      let first ← mergedFrom? v
      let others ← mergedEntries? rest
      return first ++ others
    else mergedEntries? rest

end

/-- All entries of a mapping, the merged ones first. -/
def allEntries? (entries : List (Node × Node)) : Option (List (Node × Node)) :=
  (mergedEntries? entries).map (· ++ ownEntries entries)

/-! ## Values -/

mutual

/-- How deep a node is nested. -/
def height : Node → Nat
  | scalar _ _ => 1
  | sequence _ items => heightOfItems items + 1
  | mapping _ entries => heightOfEntries entries + 1

/-- The greatest height of several nodes. -/
def heightOfItems : List Node → Nat
  | [] => 0
  | item :: rest => max (height item) (heightOfItems rest)

/-- The greatest height of keys and values. -/
def heightOfEntries : List (Node × Node) → Nat
  | [] => 0
  | (k, v) :: rest => max (max (height k) (height v)) (heightOfEntries rest)

end

/-- The fault of a node that does not fit its tag. -/
def misfit {α : Type} (depth : Nat) : Attempt α := .error (depth, .malformed .form)

/-- The value of a scalar. -/
def readScalar (depth : Nat) (tag : Tag) (node : Node) : Attempt Value :=
  match node.scalarText? with
  | some text => (tag.read text).mapError fun f => (depth, f)
  | none => misfit depth

/-- The value of a key. Collections are no keys; the key `=` counts as text. -/
def readKey (depth : Nat) (node : Node) : Attempt Value :=
  match node.tag with
  | .sequence | .mapping | .set | .orderedMap | .pairs => misfit depth
  | .value => readScalar depth .text node
  | tag => readScalar depth tag node

/-- The value of a node in a collection of the given depth; the first argument bounds its
height. -/
def readAt : Nat → Nat → Node → Attempt Value
  | 0, depth, _ => misfit depth
  | n + 1, depth, node =>
    let entry (e : Node × Node) : Attempt (Value × Value) :=
      .pair (readKey (depth + 1) e.1) (readAt n (depth + 1) e.2)
    let entries : Attempt (List (Value × Value)) :=
      match node with
      | mapping _ es =>
        match allEntries? es with
        | some es => .all (es.map entry)
        | none => misfit (depth + 1)
      | _ => misfit (depth + 1)
    let item (node : Node) : Attempt Value :=
      match node with
      | mapping _ [(k, v)] =>
        (Attempt.pair (readAt n (depth + 1) k) (readAt n (depth + 1) v)).map fun (a, b) =>
          .tuple [a, b]
      | _ => misfit (depth + 1)
    match node.tag, node with
    | .mapping, _ => entries.map Value.ofPairs
    | .set, _ =>
      entries.map fun es => .set ((es.foldl (fun kept (k, _) => Value.put kept k .null) []).map (·.1))
    | .sequence, sequence _ items =>
      (Attempt.all (items.map (readAt n (depth + 1)))).map .list
    | .orderedMap, sequence _ items => (Attempt.all (items.map item)).map .list
    | .pairs, sequence _ items => (Attempt.all (items.map item)).map .list
    | .sequence, _ | .orderedMap, _ | .pairs, _ => misfit (depth + 1)
    | tag, _ => readScalar depth tag node

/-- The value of a node. -/
def value (node : Node) : Except ValueFault Value :=
  (readAt node.height 0 node).mapError (·.2)

end Node

/-- The value of a text; an empty document has the null value. -/
def valueOf (text : String) : Except ValueFault Value :=
  match Node.ofText? text.toList with
  | .error fault => .error (.malformed fault)
  | .ok none => .ok .null
  | .ok (some node) => node.value

end SliceLint.Yaml
