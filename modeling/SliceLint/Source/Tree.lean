import SliceLint.Source.Position

/-!
# Concrete syntax trees

A tree is a labelled node with its children in source order, punctuation and comments included.
A label carries the grammar symbol (`kind`), whether the symbol is *named* (a construct, not
punctuation or a keyword), the role (`field`) that the node plays in its parent, the lexeme, and
the place where the node starts. Two flags describe faults: a node is *missing* when the reader
had to suppose it, and *faulty* when a fault lies in it or below it.

**Flags** (`Tree.IsFlagged`). A tree is flagged when each of its nodes is faulty just if the node is
itself a fault or a child of it is faulty.

**Parts** (`Part`). The trees that the grammar reads below the root. They are flagged. Only the root
covers a whole file, so no construct in a part has the kind of a program.

**Traversal** (`walk`). Named nodes in document order, each with its ancestors, nearest first.

**First fault** (`firstFault`). The search for the first fault descends only into faulty nodes.
-/

namespace SliceLint

/-- What is known of one node. -/
structure Label where
  kind : String
  named : Bool
  field : Option String
  lexeme : String
  start : Position
  missing : Bool
  faulty : Bool
deriving DecidableEq, Repr, Inhabited

/-- A concrete syntax tree. -/
inductive Tree where
  | node (label : Label) (children : List Tree)
deriving Repr, Inhabited

/-- The kind of a node that covers text no rule of the grammar accepts. -/
def faultKind : String := "ERROR"

/-- The kind of the node that covers a whole file. -/
def programKind : String := "program"

/-- A node below the root may have this kind: no construct there covers a whole file. -/
def isPartKind (named : Bool) (kind : String) : Bool := !named || kind != programKind

namespace Tree

def label : Tree → Label
  | node l _ => l

def children : Tree → List Tree
  | node _ cs => cs

def kind (t : Tree) : String := t.label.kind

def named (t : Tree) : Bool := t.label.named

def start (t : Tree) : Position := t.label.start

def lexeme (t : Tree) : String := t.label.lexeme

def faulty (t : Tree) : Bool := t.label.faulty

/-- The children that are constructs of their own. -/
def namedChildren (t : Tree) : List Tree := t.children.filter named

/-- The first child that plays the given role. -/
def childInRole? (t : Tree) (field : String) : Option Tree :=
  t.children.find? fun c => c.label.field == some field

/-- The node is itself a fault: unreadable text, or a supposed token. -/
def isFault (t : Tree) : Bool := t.kind == faultKind || t.label.missing

/-- The text between the quotes of a string literal; any other lexeme as it is. -/
def unquoted (t : Tree) : String :=
  match t.lexeme.toList with
  | q :: rest =>
    if (q = '\'' ∨ q = '"') ∧ rest.getLast? = some q then String.ofList rest.dropLast
    else t.lexeme
  | [] => t.lexeme

mutual

/-- The number of nodes. -/
def size : Tree → Nat
  | node _ cs => sizeAll cs + 1

/-- The number of nodes of several trees. -/
def sizeAll : List Tree → Nat
  | [] => 0
  | t :: ts => size t + sizeAll ts

end

/-! ## Construction -/

/-- A node without children. -/
def leaf (kind : String) (named : Bool) (lexeme : String) (start : Position) : Tree :=
  node ⟨kind, named, none, lexeme, start, false, kind == faultKind⟩ []

/-- A node at which the reader stopped. -/
def fault (start : Position) : Tree :=
  node ⟨faultKind, true, none, "", start, false, true⟩ []

/-- A token that the reader had to suppose. -/
def supposed (kind : String) (start : Position) : Tree :=
  node ⟨kind, true, none, "", start, true, true⟩ []

/-- A construct with the given children; it is faulty when it is a fault or one of them is
faulty. -/
def branch (kind : String) (lexeme : String) (start : Position) (children : List Tree) : Tree :=
  node ⟨kind, true, none, lexeme, start, false, kind == faultKind || children.any faulty⟩ children

/-- Let a node play a role in its parent. -/
def inRole (field : String) : Tree → Tree
  | node l cs => node { l with field := some field } cs

mutual

/-- No construct in the tree covers a whole file. -/
def IsPart : Tree → Prop
  | node l cs => isPartKind l.named l.kind ∧ AreParts cs

/-- No construct in several trees covers a whole file. -/
def AreParts : List Tree → Prop
  | [] => True
  | t :: ts => IsPart t ∧ AreParts ts

end

theorem areParts_iff {ts : List Tree} : AreParts ts ↔ ∀ t ∈ ts, t.IsPart := by
  induction ts with
  | nil => simp [AreParts]
  | cons t ts ih => simp [AreParts, ih]

theorem isPart_inRole {t : Tree} (field : String) (h : t.IsPart) : (t.inRole field).IsPart := by
  cases t with
  | node l cs => exact h

/-- Each node of the tree is flagged as faulty just when it is a fault or has a faulty child. -/
inductive IsFlagged : Tree → Prop
  | intro {l : Label} {cs : List Tree} (hflag : l.faulty = ((node l cs).isFault || cs.any faulty))
      (hchildren : ∀ c ∈ cs, c.IsFlagged) : IsFlagged (node l cs)

theorem isFlagged_fault (start : Position) : (fault start).IsFlagged :=
  .intro rfl (List.forall_mem_nil _)

theorem isFlagged_leaf (kind : String) (named : Bool) (lexeme : String) (start : Position) :
    (leaf kind named lexeme start).IsFlagged := by
  refine .intro ?_ (List.forall_mem_nil _)
  simp [isFault, Tree.kind, label]

theorem isFlagged_branch (kind lexeme : String) (start : Position) {children : List Tree}
    (h : ∀ c ∈ children, c.IsFlagged) : (branch kind lexeme start children).IsFlagged := by
  refine .intro ?_ h
  simp [isFault, Tree.kind, label]

theorem isFlagged_inRole {t : Tree} (field : String) (h : t.IsFlagged) :
    (t.inRole field).IsFlagged := by
  cases h with
  | intro hflag hchildren => exact .intro hflag hchildren

end Tree

/-- A tree for a part of a file: what the grammar reads below the root. -/
structure Part where
  tree : Tree
  isPart : tree.IsPart
  isFlagged : tree.IsFlagged

namespace Part

theorem areParts_trees (ps : List Part) : Tree.AreParts (ps.map tree) := by
  rw [Tree.areParts_iff]
  intro t ht
  obtain ⟨p, -, rfl⟩ := List.mem_map.1 ht
  exact p.isPart

theorem isFlagged_trees (ps : List Part) : ∀ t ∈ ps.map tree, t.IsFlagged := by
  intro t ht
  obtain ⟨p, -, rfl⟩ := List.mem_map.1 ht
  exact p.isFlagged

def kind (p : Part) : String := p.tree.kind

def start (p : Part) : Position := p.tree.start

/-- A node without children. -/
def leaf (kind : String) (named : Bool) (lexeme : String) (start : Position)
    (h : isPartKind named kind) : Part :=
  ⟨.leaf kind named lexeme start, ⟨h, trivial⟩, Tree.isFlagged_leaf kind named lexeme start⟩

/-- A construct with the given children. -/
def branch (kind : String) (lexeme : String) (start : Position) (children : List Part)
    (h : isPartKind true kind) : Part :=
  ⟨.branch kind lexeme start (children.map tree), ⟨h, areParts_trees children⟩,
    Tree.isFlagged_branch kind lexeme start (isFlagged_trees children)⟩

/-- Let a node play a role in its parent. -/
def inRole (field : String) (p : Part) : Part :=
  ⟨p.tree.inRole field, Tree.isPart_inRole field p.isPart,
    Tree.isFlagged_inRole field p.isFlagged⟩

end Part

/-! ## Traversal -/

/-- A node as a traversal meets it, with its ancestors, nearest first. -/
structure Visit where
  node : Tree
  ancestors : List Tree
deriving Inhabited

namespace Visit

/-- The visits of the named children, in order. -/
def descend (v : Visit) : List Visit :=
  v.node.namedChildren.map fun c => ⟨c, v.node :: v.ancestors⟩

end Visit

namespace Tree

/-- Visit the pending nodes, the children of each before the rest. -/
def walkFrom : Nat → List Visit → List Visit
  | 0, _ => []
  | _, [] => []
  | n + 1, v :: pending => v :: walkFrom n (v.descend ++ pending)

/-- The root and its named descendants, each before its children. -/
def walk (root : Tree) : List Visit := walkFrom root.size [⟨root, []⟩]

/-! ## Faults -/

/-- Search the pending nodes for a fault, descending only into faulty ones. -/
def firstFaultFrom : Nat → List Tree → Option Tree
  | 0, _ => none
  | _, [] => none
  | n + 1, t :: pending =>
    if t.isFault then some t
    else if t.faulty then firstFaultFrom n (t.children ++ pending)
    else firstFaultFrom n pending

/-- The first fault in document order. -/
def firstFault? (root : Tree) : Option Tree := firstFaultFrom root.size [root]

end Tree

end SliceLint
