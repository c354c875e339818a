import SliceLint.Yaml.Token

/-!
# Scalars

The three ways to write a scalar: plain, in quotes, and as a block. Line breaks inside a plain or a
quoted scalar are folded: one break becomes a blank, and of several breaks the first is dropped.
-/

namespace SliceLint.Yaml

/-- A folded stretch of line breaks: the first, and those after it. -/
def folded (first : List Char) (others : List Char) : List Char :=
  if first != ['\n'] then first ++ others
  else if others.isEmpty then [' ']
  else others

/-! ## Plain scalars -/

/-- The number of characters of a plain scalar up to the next gap. -/
def plainLength (inFlow : Bool) : List Char → Nat
  | [] => 0
  | c :: rest =>
    let next := rest.headD '\x00'
    if isGap c || (c == ':' && (isGap next || (inFlow && isFlowIndicator next))) ||
        (inFlow && (isFlowIndicator c || c == '?')) then 0
    else plainLength inFlow rest + 1

/-- Pass over the breaks and blanks behind the first break; nothing when a document starts or ends
on the way. -/
def plainBreaks? : Nat → Spot → Option (List Char × Spot)
  | 0, s => some ([], s)
  | n + 1, s =>
    if s.head == ' ' then plainBreaks? n s.step
    else if isBreak s.head then
      let (b, t) := s.lineBreak
      if t.atSeparator then none
      else (plainBreaks? n t).map fun (bs, u) => (b ++ bs, u)
    else some ([], s)

/-- The gap behind a stretch of a plain scalar: what it adds to the scalar, the spot behind it, and
whether it holds a line break. -/
def plainGap (s : Spot) : List Char × Spot × Bool :=
  let (blanks, t) := s.takeWhile (· == ' ')
  if isBreak t.head then
    let (b, u) := t.lineBreak
    if u.atSeparator then ([], u, true)
    else
      match plainBreaks? u.size u with
      | some (bs, v) => (folded b bs, v, true)
      | none => ([], u.skipWhile fun c => c == ' ' || isBreak c, true)
  else (blanks, t, false)

/-- A plain scalar as it is read. -/
structure PlainScalar where
  text : List Char
  spot : Spot
  /-- The scalar ends at the start of a line, where a key may begin. -/
  brokeLine : Bool

/-- Read the stretches of a plain scalar. -/
def plainFrom (inFlow : Bool) (indent : Int) : Nat → List Char → PlainScalar → PlainScalar
  | 0, _, scalar => scalar
  | n + 1, gap, scalar =>
    let s := scalar.spot
    let k := if s.head == '#' then 0 else plainLength inFlow s.rest
    if k = 0 then scalar
    else
      let (gap', t, broke) := plainGap (s.advance k)
      let scalar' : PlainScalar := ⟨scalar.text ++ gap ++ s.rest.take k, t, broke⟩
      if gap'.isEmpty || t.head == '#' || (!inFlow && (t.column : Int) < indent) then scalar'
      else plainFrom inFlow indent n gap' scalar'

/-- Read a plain scalar; the lines after the first are indented at least so much. -/
def readPlain (inFlow : Bool) (indent : Int) (s : Spot) : PlainScalar :=
  plainFrom inFlow indent (s.size + 1) [] ⟨[], s, false⟩

/-! ## Quoted scalars -/

/-- The characters that an escape of one letter stands for. -/
def escapeValue? : Char → Option Char
  | '0' => some '\x00'
  | 'a' => some '\x07'
  | 'b' => some '\x08'
  | 't' => some '\t'
  | '\t' => some '\t'
  | 'n' => some '\n'
  | 'v' => some '\x0b'
  | 'f' => some '\x0c'
  | 'r' => some '\r'
  | 'e' => some '\x1b'
  | ' ' => some ' '
  | '"' => some '"'
  | '\\' => some '\\'
  | '/' => some '/'
  | 'N' => some '\u0085'
  | '_' => some '\u00a0'
  | 'L' => some '\u2028'
  | 'P' => some '\u2029'
  | _ => none

/-- The number of digits of an escape that gives the number of a character. -/
def escapeSize? : Char → Option Nat
  | 'x' => some 2
  | 'u' => some 4
  | 'U' => some 8
  | _ => none

/-- The value of hexadecimal digits. -/
def hexValue (cs : List Char) : Nat :=
  cs.foldl (fun n c =>
    16 * n + (if c.isDigit then c.toNat - 48 else c.toLower.toNat - 87)) 0

/-- Read line breaks and the blanks that lead each line; no document may start or end there. -/
def quotedBreaks : Nat → Spot → Except Malformed (List Char × Spot)
  | 0, s => .ok ([], s)
  | n + 1, s =>
    if s.atSeparator then .error .form
    else
      let t := s.skipWhile fun c => c == ' ' || c == '\t'
      if isBreak t.head then do
        let (b, u) := t.lineBreak
        let (bs, v) ← quotedBreaks n u
        return (b ++ bs, v)
      else .ok ([], t)

/-- The character with a number, if the number is not too great to be looked at. The surrogates,
which no text here can hold, are read as the replacement character. -/
def charOf (n : Nat) : Except Malformed Char :=
  if n > 0x7fffffff then .error .overflow
  else if n > 0x10ffff then .error .codePoint
  else if n.isValidChar then .ok (Char.ofNat n)
  else .ok '\ufffd'

/-- Read an escape, behind its backslash. -/
def readEscape (s : Spot) : Except Malformed (List Char × Spot) :=
  let c := s.head
  match escapeValue? c, escapeSize? c with
  | some d, _ => .ok ([d], s.step)
  | none, some size =>
    let digits := s.step.rest.take size
    if digits.length < size || !digits.all isHexDigit then .error .form
    else (charOf (hexValue digits)).map fun d => ([d], s.step.advance size)
  | none, none =>
    if isBreak c then
      let t := s.lineBreak.2
      quotedBreaks (t.size + 1) t
    else .error .form

/-- Read a quoted scalar behind its opening quote, given what was read in reverse. -/
def quotedFrom (double : Bool) : Nat → List Char → Spot → Except Malformed (String × Spot)
  | 0, _, _ => .error .form
  | n + 1, back, s =>
    let c := s.head
    if c == '\x00' then .error .form
    else if c == ' ' || c == '\t' then
      let (blanks, t) := s.takeWhile fun c => c == ' ' || c == '\t'
      if isBreak t.head then breaks n back t else quotedFrom double n (blanks.reverse ++ back) t
    else if isBreak c then breaks n back s
    else if double then
      if c == '"' then .ok (String.ofList back.reverse, s.step)
      else if c == '\\' then do
        let (cs, t) ← readEscape s.step
        quotedFrom double n (cs.reverse ++ back) t
      else quotedFrom double n (c :: back) s.step
    else if c == '\'' then
      if s.peek 1 == '\'' then quotedFrom double n ('\'' :: back) (s.advance 2)
      else .ok (String.ofList back.reverse, s.step)
    else quotedFrom double n (c :: back) s.step
where
  /-- Go on behind line breaks. -/
  breaks (n : Nat) (back : List Char) (s : Spot) : Except Malformed (String × Spot) := do
    let (b, t) := s.lineBreak
    let (bs, u) ← quotedBreaks (t.size + 1) t
    quotedFrom double n ((folded b bs).reverse ++ back) u

/-- Read a quoted scalar. -/
def readQuoted (double : Bool) (s : Spot) : Except Malformed (String × Spot) :=
  quotedFrom double (s.size + 1) [] s.step

/-! ## Block scalars -/

/-- What becomes of the line breaks at the end of a block scalar. -/
inductive Chomping where
  | clip
  | strip
  | keep
deriving DecidableEq, Repr

/-- The chomping that a sign asks for. -/
def chompingOf? : Char → Option Chomping
  | '+' => some .keep
  | '-' => some .strip
  | _ => none

/-- The indentation that a digit asks for. -/
def incrementOf? (c : Char) : Option Nat := if c.isDigit then some (c.toNat - 48) else none

/-- Read the head of a block scalar: its chomping, and its indentation if that is given. -/
def blockHead (s : Spot) : Except Malformed ((Chomping × Option Nat) × Spot) := do
  let (chomping, increment?, t) :=
    match chompingOf? s.head with
    | some chomping =>
      match incrementOf? s.step.head with
      | some n => (chomping, some n, s.advance 2)
      | none => (chomping, none, s.step)
    | none =>
      match incrementOf? s.head with
      | some n =>
        match chompingOf? s.step.head with
        | some chomping => (chomping, some n, s.advance 2)
        | none => (Chomping.clip, some n, s.step)
      | none => (.clip, none, s)
  if increment? == some 0 || !isWordEnd t.head then throw .form
  return ((chomping, increment?), ← t.ignoreLine)

/-- Read the empty lines that lead a block scalar, and find the deepest indentation among them and
the first line that is not empty. -/
def blockIndentation : Nat → Nat → Spot → List Char × Nat × Spot
  | 0, deepest, s => ([], deepest, s)
  | n + 1, deepest, s =>
    if s.head == ' ' then blockIndentation n (max deepest s.step.column) s.step
    else if isBreak s.head then
      let (b, t) := s.lineBreak
      let (bs, deepest, u) := blockIndentation n deepest t
      (b ++ bs, deepest, u)
    else ([], deepest, s)

/-- Pass over blanks up to an indentation. -/
def skipIndent (indent : Nat) : Nat → Spot → Spot
  | 0, s => s
  | n + 1, s => if s.column < indent && s.head == ' ' then skipIndent indent n s.step else s

/-- Read empty lines, and the indentation of the line after them. -/
def blockBreaks (indent : Nat) : Nat → Spot → List Char × Spot
  | 0, s => ([], s)
  | n + 1, s =>
    let t := skipIndent indent indent s
    if isBreak t.head then
      let (b, u) := t.lineBreak
      let (bs, v) := blockBreaks indent n u
      (b ++ bs, v)
    else ([], t)

/-- Read the lines of a block scalar. The argument before the spot holds the empty lines before
the line at the spot. -/
def blockLines (isFolded : Bool) (chomping : Chomping) (indent : Nat) :
    Nat → List Char → Spot → List Char × Spot
  | 0, _, s => ([], s)
  | n + 1, empty, s =>
    let (line, t) := s.takeWhile fun c => !isLineEnd c
    let (b, u) := t.lineBreak
    let (bs, v) := blockBreaks indent (u.size + 1) u
    let isText (c : Char) : Bool := c != ' ' && c != '\t'
    if v.column == indent && v.head != '\x00' then
      let join :=
        if isFolded && b == ['\n'] && isText s.head && isText v.head then
          (if bs.isEmpty then [' '] else [])
        else b
      let (rest, w) := blockLines isFolded chomping indent n bs v
      (empty ++ line ++ join ++ rest, w)
    else
      let tail := match chomping with
        | .strip => []
        | .clip => b
        | .keep => b ++ bs
      (empty ++ line ++ tail, v)

/-- Read a block scalar inside a block of the given indentation. -/
def readBlock (isFolded : Bool) (indent : Int) (s : Spot) : Except Malformed (String × Spot) := do
  let ((chomping, increment?), t) ← blockHead s.step
  let least := max 1 (indent + 1).toNat
  let (empty, own, u) :=
    match increment? with
    | none =>
      let (bs, deepest, u) := blockIndentation (t.size + 1) 0 t
      (bs, max least deepest, u)
    | some n =>
      let own := least + n - 1
      let (bs, u) := blockBreaks own (t.size + 1) t
      (bs, own, u)
  if u.column == own && u.head != '\x00' then
    let (cs, v) := blockLines isFolded chomping own (u.size + 1) empty u
    return (String.ofList cs, v)
  else return (String.ofList (if chomping == .keep then empty else []), u)

end SliceLint.Yaml
