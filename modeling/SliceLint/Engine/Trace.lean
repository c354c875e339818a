import SliceLint.Rule.Basic

/-!
# Calls of rules

Over one file the rules are called in a fixed order: at each node, in document order, every rule
that subscribes to its kind, and after the last node every rule once more. A rule that fails is
not called again in this file, nor is any rule of the same name.

**The trace** (`traceOf`) lists the calls that were made, each with what it led to.
-/

namespace SliceLint

/-- The occasion on which a rule is called. -/
inductive Occasion where
  | node (visit : Visit)
  | exit
  | unparsed

/-- The place that an occasion points to. -/
def Occasion.place : Occasion → Position
  | node v => v.node.start
  | exit => .origin
  | unparsed => .origin

/-- A call of a rule, and what it led to. -/
structure Call where
  rule : Rule
  occasion : Occasion
  outcome : Except Fault (List Finding)

/-- What a rule answers on an occasion. -/
def Rule.respond (r : Rule) (o : Occasion) (ctx : FileContext) (s : Counters) : Response :=
  match o with
  | .node v => r.onNode v ctx s
  | .exit => r.onExit ctx s
  | .unparsed =>
    match r.onUnparsed? with
    | some answer => answer ctx s
    | none => (.ok [], s)

/-! ## Subscriptions -/

/-- Rules by the kind of node they subscribe to. -/
abbrev Subscriptions := List (String × List Rule)

namespace Subscriptions

/-- Add a rule behind those that subscribe to a kind. -/
def add (table : Subscriptions) (r : Rule) (kind : String) : Subscriptions :=
  match table with
  | [] => [(kind, [r])]
  | (k, rs) :: rest => if k == kind then (k, rs ++ [r]) :: rest else (k, rs) :: add rest r kind

/-- The subscriptions of several rules, each kind of a rule counted once. -/
def ofRules (rules : List Rule) : Subscriptions :=
  rules.foldl (fun table r => (Text.distinct r.kinds).foldl (fun t k => t.add r k) table) []

/-- The rules that subscribe to a kind, in order. -/
def subscribers (table : Subscriptions) (kind : String) : List Rule := (table.lookup kind).getD []

end Subscriptions

/-! ## The trace of a file -/

/-- What is to be called, if no rule fails: every subscriber of every node, then all rules. -/
def schedule (rules : List Rule) (tree : Tree) : List (Rule × Occasion) :=
  let table := Subscriptions.ofRules rules
  (tree.walk.flatMap fun v => (table.subscribers v.node.kind).map fun r => (r, .node v)) ++
    rules.map fun r => (r, .exit)

/-- How far the calls have come. -/
structure Progress where
  counters : Counters
  failed : List String
  calls : List Call

namespace Progress

def start : Progress := ⟨.empty, [], []⟩

/-- Call a rule. -/
def call (ctx : FileContext) (p : Progress) (r : Rule) (o : Occasion) : Progress :=
  let (outcome, counters) := r.respond o ctx p.counters
  let failed := match outcome with
    | .ok _ => p.failed
    | .error _ => r.info.id :: p.failed
  ⟨counters, failed, ⟨r, o, outcome⟩ :: p.calls⟩

/-- Call a rule unless one of its name has failed. -/
def next (ctx : FileContext) (p : Progress) (task : Rule × Occasion) : Progress :=
  if p.failed.contains task.1.info.id then p else p.call ctx task.1 task.2

end Progress

/-- The calls made over a file with a tree. -/
def traceOf (rules : List Rule) (ctx : FileContext) (tree : Tree) : List Call :=
  ((schedule rules tree).foldl (Progress.next ctx) .start).calls.reverse

/-- The calls made for a file without a tree: every rule that needs none. -/
def traceUnparsed (rules : List Rule) (ctx : FileContext) : List Call :=
  let able := rules.filter fun r => r.onUnparsed?.isSome
  (able.foldl (fun (p : Progress) r => p.call ctx r .unparsed) .start).calls.reverse

end SliceLint
