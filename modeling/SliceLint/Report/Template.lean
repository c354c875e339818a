import SliceLint.Report.Violation

/-!
# Message templates

A template is text with named gaps. Filling it takes each gap's datum by its name; a name without
a datum is a fault.
-/

namespace SliceLint

/-- A stretch of a template. -/
inductive Template.Piece where
  | text (s : String)
  | gap (name : String)
deriving DecidableEq, Repr

/-- A message with named gaps. -/
abbrev Template := List Template.Piece

namespace Template

/-- The names of the gaps. -/
def gaps (t : Template) : List String :=
  t.filterMap fun
    | .gap name => some name
    | .text _ => none

/-- Fill one stretch; the error is the name that has no datum. -/
def Piece.fill (data : Data) : Piece → Except String String
  | .text s => .ok s
  | .gap name =>
    match data.lookup name with
    | some d => .ok d.shown
    | none => .error name

/-- Fill every gap; the error is the first name that has no datum. -/
def fill (data : Data) (t : Template) : Except String String :=
  (t.mapM (Piece.fill data)).map String.join

/-- The template as it is written, each gap by its name in braces. -/
def written (t : Template) : String :=
  String.join <| t.map fun
    | .text s => s
    | .gap name => "\x7b" ++ name ++ "\x7d"

end Template

end SliceLint
