import SliceLint.Text.Lines
import SliceLint.Text.Ranges

/-!
# Tables

A table with a title, a row of headings in a heavy frame, and rows of cells. Every column is as
wide as its widest cell. Texts stand at the left of their cells or in the middle; the title stands
in the middle of the table and is broken into lines that fit it.

Widths count the columns of a terminal: some characters take two, some none.
-/

namespace SliceLint

/-! ## Widths -/

/-- Characters that take no column. -/
def narrowRanges : List (Nat × Nat) :=
  [(0x0300, 0x036f), (0x0483, 0x0489), (0x0591, 0x05bd), (0x064b, 0x065f), (0x200b, 0x200f),
    (0x20d0, 0x20f0), (0xfe00, 0xfe0f), (0xfe20, 0xfe2f)]

/-- Characters that take two columns. -/
def wideRanges : List (Nat × Nat) :=
  [(0x1100, 0x115f), (0x231a, 0x231b), (0x2329, 0x232a), (0x23e9, 0x23ec), (0x23f0, 0x23f0),
    (0x23f3, 0x23f3), (0x25fd, 0x25fe), (0x2614, 0x2615), (0x2648, 0x2653), (0x267f, 0x267f),
    (0x2693, 0x2693), (0x26a1, 0x26a1), (0x26aa, 0x26ab), (0x26bd, 0x26be), (0x26c4, 0x26c5),
    (0x26ce, 0x26ce), (0x26d4, 0x26d4), (0x26ea, 0x26ea), (0x26f2, 0x26f3), (0x26f5, 0x26f5),
    (0x26fa, 0x26fa), (0x26fd, 0x26fd), (0x2705, 0x2705), (0x270a, 0x270b), (0x2728, 0x2728),
    (0x274c, 0x274c), (0x274e, 0x274e), (0x2753, 0x2755), (0x2757, 0x2757), (0x2795, 0x2797),
    (0x27b0, 0x27b0), (0x27bf, 0x27bf), (0x2b1b, 0x2b1c), (0x2b50, 0x2b50), (0x2b55, 0x2b55),
    (0x2e80, 0x303e), (0x3041, 0x3247), (0x3250, 0x4dbf), (0x4e00, 0xa4c6), (0xa960, 0xa97c),
    (0xac00, 0xd7a3), (0xf900, 0xfaff), (0xfe10, 0xfe19), (0xfe30, 0xfe6b), (0xff01, 0xff60),
    (0xffe0, 0xffe6), (0x16fe0, 0x18aff), (0x1b000, 0x1b2fb), (0x1f004, 0x1f004),
    (0x1f0cf, 0x1f0cf), (0x1f18e, 0x1f18e), (0x1f191, 0x1f19a), (0x1f200, 0x1f320),
    (0x1f32d, 0x1f335), (0x1f337, 0x1f37c), (0x1f37e, 0x1f393), (0x1f3a0, 0x1f3ca),
    (0x1f3cf, 0x1f3d3), (0x1f3e0, 0x1f3f0), (0x1f3f4, 0x1f3f4), (0x1f3f8, 0x1f43e),
    (0x1f440, 0x1f440), (0x1f442, 0x1f4fc), (0x1f4ff, 0x1f53d), (0x1f54b, 0x1f54e),
    (0x1f550, 0x1f567), (0x1f57a, 0x1f57a), (0x1f595, 0x1f596), (0x1f5a4, 0x1f5a4),
    (0x1f5fb, 0x1f64f), (0x1f680, 0x1f6c5), (0x1f6cc, 0x1f6cc), (0x1f6d0, 0x1f6d2),
    (0x1f6d5, 0x1f6d7), (0x1f6eb, 0x1f6ec), (0x1f6f4, 0x1f6fc), (0x1f7e0, 0x1f7eb),
    (0x1f90c, 0x1f93a), (0x1f93c, 0x1f945), (0x1f947, 0x1f9ff), (0x1fa70, 0x1faff),
    (0x20000, 0x3fffd)]

/-- The number of columns of a character. -/
def charWidth (c : Char) : Nat :=
  if c.toNat < 32 || c.toNat == 127 || Text.inRanges narrowRanges c.toNat then 0
  else if Text.inRanges wideRanges c.toNat then 2
  else 1

/-- The number of columns of a text. -/
def textWidth (cs : List Char) : Nat := cs.foldl (fun n c => n + charWidth c) 0

/-! ## Lines of a title -/

/-- Cut a text into words, each with the blanks around it. -/
def wordsFrom : Nat → List Char → List (List Char)
  | 0, _ => []
  | n + 1, cs =>
    let lead := cs.takeWhile Text.isSpace
    let word := (cs.drop lead.length).takeWhile fun c => !Text.isSpace c
    if word.isEmpty then []
    else
      let rest := cs.drop (lead.length + word.length)
      let gap := rest.takeWhile Text.isSpace
      (lead ++ word ++ gap) :: wordsFrom n (rest.drop gap.length)

/-- The text without the white space at its end. -/
def trimEnd (cs : List Char) : List Char := (cs.reverse.dropWhile Text.isSpace).reverse

/-- Cut a word into pieces of a width; the second argument is the piece so far, in reverse. -/
def pieces (width : Nat) : List Char → List Char → List (List Char)
  | back, [] => [back.reverse]
  | back, c :: rest =>
    if !back.isEmpty && textWidth back + charWidth c > width then
      back.reverse :: pieces width [c] rest
    else pieces width (c :: back) rest

/-- Put words into lines of a width; the first list is the line so far. -/
def linesFrom (width : Nat) : List Char → List (List Char) → List (List Char)
  | line, [] => if line.isEmpty then [] else [line]
  | line, word :: rest =>
    let size := textWidth (trimEnd word)
    if size ≤ width - textWidth line then linesFrom width (line ++ word) rest
    else if size > width then
      let cut := pieces width [] word
      (if line.isEmpty then [] else [line]) ++ cut.dropLast ++
        linesFrom width (cut.getLast?.getD []) rest
    else (if line.isEmpty then [] else [line]) ++ linesFrom width word rest

/-! ## Tables -/

/-- Where a text stands in its cell. -/
inductive Alignment where
  | left
  | center
deriving DecidableEq, Repr

/-- Fill a text up with blanks to a width. -/
def aligned (width : Nat) (a : Alignment) (cs : List Char) : List Char :=
  let free := width - textWidth cs
  let before := match a with
    | .left => 0
    | .center => free / 2
  List.replicate before ' ' ++ cs ++ List.replicate (free - before) ' '

/-- A column: its heading, and where texts stand in it. -/
structure Column where
  heading : String
  alignment : Alignment
deriving DecidableEq, Repr

/-- A table. -/
structure Table where
  title : String
  columns : List Column
  rows : List (List String)
deriving DecidableEq, Repr

namespace Table

/-- All cells of a column, the heading first. -/
def cells (t : Table) (i : Nat) : List (List Char) :=
  (((t.columns[i]?.map Column.heading).getD "") :: t.rows.map fun row => row[i]?.getD "").map
    String.toList

/-- The columns with their widths. -/
def widths (t : Table) : List (Column × Nat) :=
  t.columns.zipIdx.map fun (column, i) => (column, ((t.cells i).map textWidth).foldl max 0)

/-- The width of the table: its cells, a blank at each side of them, and the frame. -/
def width (t : Table) : Nat := t.widths.foldl (fun n (_, w) => n + w + 3) 1

/-- A line of the frame, given its ends, its line, and the crossings with the columns. -/
def frame (t : Table) (first line crossing last : Char) : List Char :=
  let parts := t.widths.map fun (_, w) => List.replicate (w + 2) line
  first :: (parts.intersperse [crossing]).flatten ++ [last]

/-- A row of texts between the lines of the frame. -/
def row (t : Table) (bar : Char) (texts : List String) : List Char :=
  let parts := (t.widths.zip texts).map fun ((column, w), text) =>
    ' ' :: aligned w column.alignment text.toList ++ [' ']
  bar :: (parts.intersperse [bar]).flatten ++ [bar]

/-- The lines of the title. -/
def titleLines (t : Table) : List (List Char) :=
  let words := wordsFrom (t.title.length + 1) t.title.toList
  (linesFrom t.width [] words).map fun line => aligned t.width .center (trimEnd line)

/-- The lines of the table. -/
def lines (t : Table) : List String :=
  (t.titleLines ++
    [t.frame '┏' '━' '┳' '┓', t.row '┃' (t.columns.map Column.heading), t.frame '┡' '━' '╇' '┩'] ++
    t.rows.map (t.row '│') ++ [t.frame '└' '─' '┴' '┘']).map String.ofList

end Table

/-- What writes tables. -/
class TableWriter where
  lines : Table → List String

/-- Tables are written with frames. -/
instance Table.writer : TableWriter := ⟨Table.lines⟩

end SliceLint
