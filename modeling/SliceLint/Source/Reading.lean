import SliceLint.Source.Dialect
import SliceLint.Source.Repair

/-!
# Reading a source file

The suffix of a file selects the dialect it is read in, and the text becomes a tree. A text that
no statement list covers becomes a tree with a fault in it, and is refused where its first fault
lies.

**The reader** (`SourceReader`). What makes trees of texts is not part of the program. All that is
said about files holds for any reader, and what more is needed of one is a law of its own. Where no
other reader is named, texts are read by the grammar of this library.
-/

namespace SliceLint

/-- Why a source file has no tree. -/
inductive SourceFault where
  | unsupported (suffix : String)
  | unexpected (place : Position)
deriving DecidableEq, Repr

namespace SourceFault

def place : SourceFault → Position
  | unsupported _ => .origin
  | unexpected p => p

/-- The line of the fault, counted from one. -/
def line (f : SourceFault) : Nat := f.place.row + 1

/-- The column of the fault, counted from one. -/
def column (f : SourceFault) : Nat := f.place.column + 1

def message (f : SourceFault) : String :=
  match f with
  | unsupported suffix => "Unsupported file extension: " ++ suffix
  | unexpected _ =>
    "Parsing error: unexpected syntax at " ++ toString f.line ++ ":" ++ toString f.column

end SourceFault

namespace Dialect

/-- The tree of a text. The program starts behind the blanks that lead it. -/
def tree (d : Dialect) (text : String) : Tree :=
  let cs := text.toList
  let start := (Source.Cursor.ofText cs []).skipBlanks.place
  match (Source.readText d.hasMarkup cs []).result? with
  | some (items, _) => Tree.branch programKind "" start (items.map Part.tree)
  | none =>
    let place := Position.origin.afterAll (cs.take (Source.faultIndex d.hasMarkup cs))
    Tree.branch programKind "" start [Tree.fault place]

end Dialect

/-- What makes a tree of the text of a file. -/
class SourceReader where
  tree : Dialect → String → Tree

/-- Files are read by the grammar. -/
instance SourceReader.grammar : SourceReader := ⟨Dialect.tree⟩

/-- A tree, unless there is a fault in it. -/
def Tree.sound (t : Tree) : Except SourceFault Tree :=
  if t.faulty then .error (.unexpected ((t.firstFault?.map Tree.start).getD .origin)) else .ok t

/-- The dialect and the tree of a file with the given suffix. -/
def readSource [SourceReader] (suffix text : String) : Except SourceFault (Dialect × Tree) :=
  match Dialect.ofExtension? suffix with
  | none => .error (.unsupported suffix)
  | some d => (SourceReader.tree d text).sound.map fun t => (d, t)

end SliceLint
