import SliceLint.Source.Tree

/-!
# Cursors

A cursor stands between two tokens of a source text, before the blanks and comments that lead
the next token. It knows what is left to read, how many characters lie behind it, and the place
it stands at.

**Blanks and comments** (`trivia`) may lead any token; comments become nodes of the tree.

**Line ends** (`statementEnds`). A statement without a semicolon ends at the end of the text,
before a closing brace, or at a line end, unless the next line starts with a character that
continues the statement. An index may be *sealed*: no statement ends there without a semicolon.
-/

namespace SliceLint.Source

/-- A place between two tokens of a text. -/
structure Cursor where
  rest : List Char
  index : Nat
  place : Position
  /-- The length of the whole text, a bound on the steps of any loop. -/
  limit : Nat
  /-- The indices at which no statement may end without a semicolon. -/
  seals : List Nat

namespace Cursor

/-- The cursor at the start of a text. -/
def ofText (text : List Char) (seals : List Nat) : Cursor :=
  ⟨text, 0, .origin, text.length + 1, seals⟩

/-- Move over one character. -/
def step (c : Cursor) : Cursor :=
  match c.rest with
  | [] => c
  | ch :: rest => { c with rest := rest, index := c.index + 1, place := c.place.after ch }

/-- Move over several characters. -/
def advance : Nat → Cursor → Cursor
  | 0, c => c
  | n + 1, c => advance n c.step

/-- The character at the cursor; the null character at the end of the text. -/
def head (c : Cursor) : Char := c.rest.headD '\x00'

end Cursor

/-! ## Character classes -/

/-- Characters that may stand between tokens. -/
def isBlank (c : Char) : Bool :=
  c == ' ' || ('\t' ≤ c && c ≤ '\r') ||
    (c.toNat ≥ 128 &&
      (c == '\u0085' || c == '\u00a0' || c == '\u1680' || ('\u2000' ≤ c && c ≤ '\u200b') ||
        c == '\u2028' || c == '\u2029' || c == '\u202f' || c == '\u205f' || c == '\u2060' ||
        c == '\u3000' || c == '\ufeff'))

/-- Characters that end a line comment. -/
def endsLine (c : Char) : Bool := c == '\n' || c == '\r' || c == '\u2028' || c == '\u2029'

/-- Characters that no name holds. -/
def isPunctuation (c : Char) : Bool :=
  c.toNat < 32 || isBlank c || ":;\x60\"'@#.,|^&<=>+-*/\\%?!~()[]\x7b\x7d".toList.contains c

def isNamePart (c : Char) : Bool := !isPunctuation c

def isNameStart (c : Char) : Bool := isNamePart c && !c.isDigit

/-! ## Blanks and comments -/

/-- The number of characters of a block comment after its opening, if it is closed. -/
def blockCommentLength? : List Char → Option Nat
  | [] => none
  | '*' :: '/' :: _ => some 2
  | _ :: rest => (blockCommentLength? rest).map (· + 1)

/-- The number of characters of the comment that starts here, if one does. -/
def commentLength? : List Char → Option Nat
  | '/' :: '/' :: rest => some ((rest.takeWhile fun c => !endsLine c).length + 2)
  | '/' :: '*' :: rest => (blockCommentLength? rest).map (· + 2)
  | _ => none

def commentKind : String := "comment"

/-- Comments may stand between any two tokens. -/
def isExtra (t : Part) : Bool := t.kind == commentKind || t.kind == "html_comment"

/-- Pass over blanks. -/
def Cursor.skipBlanks (c : Cursor) : Cursor := c.advance (c.rest.takeWhile isBlank).length

/-- Read the leaf of the given kind that spans the next characters. -/
def Cursor.takeLeaf (kind : String) (named : Bool) (n : Nat) (c : Cursor)
    (h : isPartKind named kind) : Part × Cursor :=
  (Part.leaf kind named (String.ofList (c.rest.take n)) c.place h, c.advance n)

def triviaFrom : Nat → Cursor → List Part × Cursor
  | 0, c => ([], c)
  | n + 1, c =>
    let d := c.skipBlanks
    match commentLength? d.rest with
    | none => ([], d)
    | some k =>
      let (comment, e) := d.takeLeaf commentKind true k (Eq.refl true)
      let (comments, f) := triviaFrom n e
      (comment :: comments, f)

/-- The comments that lead the next token, and the cursor at that token. -/
def trivia (c : Cursor) : List Part × Cursor :=
  if isBlank c.head || c.head == '/' then triviaFrom c.limit c else ([], c)

/-- The cursor at the next token. -/
def Cursor.token (c : Cursor) : Cursor := (trivia c).2

/-! ## Ends of statements -/

/-- Pass over blanks and comments, open comments included; nothing when a lone slash comes next. -/
def passComments? : Nat → List Char → Option (List Char)
  | 0, cs => some cs
  | n + 1, cs =>
    match cs.dropWhile isBlank with
    | '/' :: '/' :: rest => passComments? n (rest.dropWhile (· != '\n'))
    | '/' :: '*' :: rest =>
      match blockCommentLength? rest with
      | some k => passComments? n (rest.drop k)
      | none => some []
    | '/' :: _ => none
    | rest => some rest

/-- The next line may start a new statement. With `operand` the statement so far ends with an
expression, which a bracket would continue. -/
def startsStatement (operand signature : Bool) : List Char → Bool
  | '\x60' :: _ | ',' :: _ | '.' :: _ | ';' :: _ | '*' :: _ | '%' :: _ | '>' :: _ | '<' :: _
  | '=' :: _ | '?' :: _ | '^' :: _ | '|' :: _ | '&' :: _ | '/' :: _ | ':' :: _ => false
  | '\x7b' :: _ => !signature
  | '(' :: _ | '[' :: _ => !operand
  | '+' :: rest => rest.head? == some '+'
  | '-' :: rest => rest.head? == some '-'
  | '!' :: rest => rest.head? != some '='
  | 'i' :: 'n' :: rest =>
    let isLetter (c : Char) := c.isAlpha || c.toNat ≥ 128
    if !isLetter (rest.headD ' ') then false
    else if "stanceof".toList.isPrefixOf rest then isLetter ((rest.drop 8).headD ' ')
    else true
  | _ => true

/-- A statement may end before these characters without a semicolon. -/
def endsBefore (operand signature : Bool) : Nat → List Char → Bool
  | 0, _ => false
  | _, [] => true
  | _, '\x7d' :: rest => (rest.dropWhile isBlank).head? != some ':' || operand
  | n + 1, '\n' :: rest =>
    match passComments? n rest with
    | none => false
    | some cs => startsStatement operand signature cs
  | n + 1, c :: rest =>
    if isBlank c then endsBefore operand signature n rest
    else
      match commentLength? (c :: rest) with
      | some k => endsBefore operand signature n (rest.drop (k - 1))
      | none => false

/-- A statement may end at the cursor without a semicolon. -/
def Cursor.statementEnds (operand : Bool) (c : Cursor) : Bool :=
  !c.seals.contains c.index && endsBefore operand false c.limit c.rest

/-- The signature of a function may end at the cursor without a semicolon. -/
def Cursor.signatureEnds (c : Cursor) : Bool :=
  !c.seals.contains c.index && endsBefore false true c.limit c.rest

end SliceLint.Source
