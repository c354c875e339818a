import SliceLint.Source.Statement

/-!
# Programs

The grammar as a whole: every goal recognised in terms of the others, to a depth that the length
of the text bounds, and only once at each place.
-/

namespace SliceLint.Source

open Recogniser

/-- The construct that a goal stands for, in terms of the others. -/
def construct (go : Grammar) : Grammar
  | .statement => statement go
  | .block => block go
  | .sequence => sequence go
  | .expression => expression go
  | .operand => operand go
  | .typeExpression => typeExpression go
  | .unconditionalType => unconditionalType go
  | .typeOperand => typeOperand go
  | .pattern => pattern go
  | .element => element go

/-- Recognise a construct, or remember how it was recognised before. -/
def remembered (key : Nat) (p : Recogniser) : Recogniser := fun c => do
  match (← get)[key]? with
  | some o => return o
  | none =>
    let o ← p c
    modify fun memory => memory.insert key o
    return o

/-- Recognise a goal, nesting at most as deep as the first argument says. -/
def recognise : Nat → Grammar
  | 0, _, _ => refuse
  | n + 1, g, m => fun c =>
    remembered (c.index * 256 + m.number * 16 + g.number) (construct (recognise n) g m) c

/-- The line that names the interpreter of a script. -/
def interpreterLine : Recogniser :=
  leafOf "hash_bang_line" true fun cs =>
    match cs with
    | '#' :: '!' :: rest => some ((rest.takeWhile (· != '\n')).length + 2)
    | _ => none

/-- The statements of a program, up to the end of the text. -/
def statements (markup : Bool) : Recogniser := fun c =>
  let m : Mode := ⟨markup, true, true, true⟩
  let items := chain [optional interpreterLine, many (recognise (4 * c.limit + 16) .statement m)]
  andThen (items c) fun ts d =>
    let (comments, e) := trivia d
    if e.rest.isEmpty then give (ts ++ comments) e else refuse e

/-- The outcome of reading a whole text. -/
def readText (markup : Bool) (text : List Char) (seals : List Nat) : Outcome :=
  (statements markup (.ofText text seals) ∅).1

end SliceLint.Source
