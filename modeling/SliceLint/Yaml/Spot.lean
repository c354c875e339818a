/-!
# Reading a YAML text

A spot is a place in the text: what is left to read, the number of characters behind, and the line
and column, on which indentation depends. The null character stands for the end of the text.

The faults of a document are told apart only where something is known of a single value; all
faults of form count as one.
-/

namespace SliceLint.Yaml

/-- A place in a text. -/
structure Spot where
  rest : List Char
  /-- The number of characters of the whole text. -/
  size : Nat
  index : Nat
  line : Nat
  column : Nat

/-- A text is not well formed. -/
inductive Malformed where
  | form
  | codePoint
  | overflow
deriving DecidableEq, Repr

/-! ## Character classes -/

def isBreak (c : Char) : Bool :=
  c == '\n' || c == '\r' || c == '\u0085' || c == '\u2028' || c == '\u2029'

/-- The line is at its end. -/
def isLineEnd (c : Char) : Bool := c == '\x00' || isBreak c

/-- A word is at its end: a blank or the end of the line. -/
def isWordEnd (c : Char) : Bool := c == ' ' || isLineEnd c

/-- As `isWordEnd`, tabs included. -/
def isGap (c : Char) : Bool := c == '\t' || isWordEnd c

def isFlowIndicator (c : Char) : Bool := [',', '[', ']', '\x7b', '\x7d'].contains c

/-- The characters of anchors and of the handles of tags. -/
def isHandleChar (c : Char) : Bool := c.isAlphanum || c == '-' || c == '_'

def isHexDigit (c : Char) : Bool := c.isDigit || ('a' ≤ c.toLower && c.toLower ≤ 'f')

/-- Characters that a document may hold. -/
def isAllowed (c : Char) : Bool :=
  c == '\t' || c == '\n' || c == '\r' || (' ' ≤ c && c ≤ '~') || c == '\u0085' ||
    ('\u00a0' ≤ c && c ≤ '\ufffd') || c.toNat ≥ 0x10000

namespace Spot

def ofText (text : List Char) : Spot := ⟨text, text.length, 0, 0, 0⟩

/-- The next character. -/
def head (s : Spot) : Char := s.rest.headD '\x00'

/-- The character so many places further on. -/
def peek (s : Spot) (n : Nat) : Char := (s.rest.drop n).headD '\x00'

/-- Move over one character. A byte order mark takes no column. -/
def step (s : Spot) : Spot :=
  match s.rest with
  | [] => s
  | c :: rest =>
    if isBreak c && !(c == '\r' && rest.head? == some '\n') then
      ⟨rest, s.size, s.index + 1, s.line + 1, 0⟩
    else
      ⟨rest, s.size, s.index + 1, s.line, if c == '\ufeff' then s.column else s.column + 1⟩

/-- Move over several characters. -/
def advance : Nat → Spot → Spot
  | 0, s => s
  | n + 1, s => advance n s.step

/-- The characters at the front that meet a condition, and the spot behind them. -/
def takeWhile (s : Spot) (p : Char → Bool) : List Char × Spot :=
  let cs := s.rest.takeWhile p
  (cs, s.advance cs.length)

/-- Move over the characters at the front that meet a condition. -/
def skipWhile (s : Spot) (p : Char → Bool) : Spot := (s.takeWhile p).2

/-- Read a line break, in its normal form; nothing when there is none. -/
def lineBreak (s : Spot) : List Char × Spot :=
  match s.rest with
  | '\r' :: '\n' :: _ => (['\n'], s.advance 2)
  | c :: _ =>
    if c == '\n' || c == '\r' || c == '\u0085' then (['\n'], s.step)
    else if c == '\u2028' || c == '\u2029' then ([c], s.step)
    else ([], s)
  | [] => ([], s)

/-- Move over blanks and a comment. -/
def skipComment (s : Spot) : Spot :=
  let t := s.skipWhile (· == ' ')
  if t.head == '#' then t.skipWhile fun c => !isLineEnd c else t

/-- Move over what is left of a line that holds no more than a comment. -/
def ignoreLine (s : Spot) : Except Malformed Spot :=
  let t := s.skipComment
  if isLineEnd t.head then .ok t.lineBreak.2 else .error .form

/-- A line that starts or ends a document begins here, whatever the column. -/
def atMark (s : Spot) (mark : List Char) : Bool := mark.isPrefixOf s.rest && isGap (s.peek 3)

/-- A document starts or ends here. -/
def atSeparator (s : Spot) : Bool := s.atMark ['-', '-', '-'] || s.atMark ['.', '.', '.']

end Spot

end SliceLint.Yaml
