/-!
# Places in a text

A place is a row and a column, both counted from zero. Rows are counted by newline characters
alone; columns are counted in UTF-8 bytes from the start of the row.
-/

namespace SliceLint

/-- A place in a text: its row, and its column in UTF-8 bytes. -/
structure Position where
  row : Nat
  column : Nat
deriving DecidableEq, Repr, Inhabited

namespace Position

/-- The first place of a text. -/
def origin : Position := ⟨0, 0⟩

/-- The place after one character. -/
def after (p : Position) (c : Char) : Position :=
  if c = '\n' then ⟨p.row + 1, 0⟩ else ⟨p.row, p.column + c.utf8Size⟩

/-- The place after a run of characters. -/
def afterAll (p : Position) (cs : List Char) : Position := cs.foldl after p

@[simp] theorem afterAll_nil (p : Position) : p.afterAll [] = p := rfl

@[simp] theorem afterAll_cons (p : Position) (c : Char) (cs : List Char) :
    p.afterAll (c :: cs) = (p.after c).afterAll cs := rfl

end Position

end SliceLint
