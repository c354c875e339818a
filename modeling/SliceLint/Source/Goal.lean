import SliceLint.Source.Recogniser

/-!
# Goals

The grammar is a system of mutually recursive constructs. Each family of constructs is written
against a function `go` that recognises any goal; `Source/Parse` ties the knot.

A mode carries what the surroundings decide: whether markup elements are expressions, whether
`in` is an operator, whether a line end may end the statement, and whether a type may follow a
parameter list or stand as arguments of a value that is not called.
-/

namespace SliceLint.Source

/-- What the surroundings of a construct decide. -/
structure Mode where
  markup : Bool
  inOperator : Bool
  lineEnds : Bool
  typed : Bool
deriving DecidableEq, Repr

namespace Mode

/-- The number of a mode, different for each. -/
def number (m : Mode) : Nat :=
  m.markup.toNat + 2 * m.inOperator.toNat + 4 * m.lineEnds.toNat + 8 * m.typed.toNat

/-- The mode at the start of a statement. -/
def top (m : Mode) : Mode := ⟨m.markup, true, true, true⟩

/-- The mode between brackets. -/
def inner (m : Mode) : Mode := ⟨m.markup, true, false, true⟩

end Mode

/-- The constructs that take part in recursion. -/
inductive Goal where
  | statement
  | block
  | sequence
  | expression
  | operand
  | typeExpression
  | unconditionalType
  | typeOperand
  | pattern
  | element
deriving DecidableEq, Repr

/-- The number of a goal, different for each. -/
def Goal.number : Goal → Nat
  | statement => 0
  | block => 1
  | sequence => 2
  | expression => 3
  | operand => 4
  | typeExpression => 5
  | unconditionalType => 6
  | typeOperand => 7
  | pattern => 8
  | element => 9

/-- A way to recognise any goal. -/
abbrev Grammar := Goal → Mode → Recogniser

namespace Recogniser

def lbrace : Recogniser := token "\x7b"
def rbrace : Recogniser := token "\x7d"

/-- A list in brackets: items, possibly absent, between commas. -/
def commaList (p : Recogniser) : Recogniser :=
  chain [optional p, many (chain [token ",", optional p])]

/-- One or more items between commas; a comma may follow the last. -/
def commaList1 (p : Recogniser) : Recogniser :=
  chain [separated (token ",") p, optional (token ",")]

end Recogniser

open Recogniser

/-- The end of a statement: a semicolon, or a place where none is needed. -/
def semicolon (operand : Bool) : Recogniser := fun c =>
  if c.statementEnds operand then done c else token ";" c

/-- Words that an expression may start with and that are not names there. -/
def isOperandWord (w : String) : Bool :=
  ["this", "super", "true", "false", "null", "undefined", "function", "class", "typeof", "void",
    "delete", "await", "yield", "import"].contains w

/-- A name used as a value. -/
def identifier : Recogniser := word "identifier" fun w => !isOperandWord w

end SliceLint.Source
