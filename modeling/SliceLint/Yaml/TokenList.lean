import SliceLint.Yaml.Scalar

/-!
# The tokens of a text

The text is read token by token. A scalar, an alias or a flow collection may turn out to be a key
once the colon behind it is found; the marks that make it one are then put in before it. Such a key
lies on one line and has at most 1024 characters.

A block starts where the indentation grows, and ends where it shrinks.
-/

namespace SliceLint.Yaml

/-- A token that may turn out to start a key. -/
structure PossibleKey where
  /-- The number of tokens before it. -/
  position : Nat
  /-- It has to be a key, because the block goes on here. -/
  required : Bool
  index : Nat
  line : Nat
  column : Nat

/-- How far the text was read. -/
structure Scan where
  spot : Spot
  /-- The tokens so far, the latest first. -/
  tokens : List Token
  count : Nat
  /-- The indentation of the current block, and those of the blocks around it. -/
  indent : Int
  outer : List Int
  flowDepth : Nat
  keyAllowed : Bool
  /-- The possible key of each flow depth. -/
  keys : List (Nat × PossibleKey)

namespace Scan

def start (text : List Char) : Scan := ⟨.ofText text, [], 0, -1, [], 0, true, []⟩

/-- Add a token. -/
def emit (s : Scan) (t : Token) : Scan := { s with tokens := t :: s.tokens, count := s.count + 1 }

/-- Put a token in at a position. -/
def insert (s : Scan) (position : Nat) (t : Token) : Scan :=
  let later := s.count - position
  { s with
    tokens := s.tokens.take later ++ t :: s.tokens.drop later
    count := s.count + 1 }

/-! ## Keys -/

/-- Give up keys that can be none any more. -/
def dropStale (s : Scan) : Except Malformed Scan :=
  let stale (k : PossibleKey) : Bool := k.line != s.spot.line || s.spot.index - k.index > 1024
  if s.keys.any fun (_, k) => stale k && k.required then .error .form
  else .ok { s with keys := s.keys.filter fun (_, k) => !stale k }

/-- Give up the possible key of this depth. -/
def dropKey (s : Scan) : Except Malformed Scan :=
  match s.keys.lookup s.flowDepth with
  | none => .ok s
  | some k =>
    if k.required then .error .form
    else .ok { s with keys := s.keys.filter (·.1 != s.flowDepth) }

/-- The next token may be a key. -/
def noteKey (s : Scan) : Except Malformed Scan :=
  if !s.keyAllowed then .ok s
  else do
    let s ← s.dropKey
    let p := s.spot
    let required := s.flowDepth == 0 && s.indent == p.column
    return { s with
      keys := (s.flowDepth, ⟨s.count, required, p.index, p.line, p.column⟩) :: s.keys }

def allowKey (s : Scan) (allowed : Bool) : Scan := { s with keyAllowed := allowed }

/-! ## Indentation -/

def unwindFrom : List Int → Int → Scan → Scan
  | [], _, s => s
  | i :: outer, column, s =>
    if s.indent > column then
      unwindFrom outer column { s.emit .blockEnd with indent := i, outer := outer }
    else s

/-- End the blocks that are indented more. -/
def unwind (s : Scan) (column : Int) : Scan :=
  if s.flowDepth > 0 then s else unwindFrom s.outer column s

/-- Start a block where the indentation grows. -/
def grow (s : Scan) (column : Nat) (position : Nat) (t : Token) : Scan :=
  if s.indent < column then
    { s.insert position t with indent := column, outer := s.indent :: s.outer }
  else s

/-! ## Marks -/

/-- Read a mark of so many characters. -/
def mark (s : Scan) (n : Nat) (t : Token) : Scan :=
  { s.emit t with spot := s.spot.advance n }

/-- Read the start or the end of a document. -/
def documentMark (s : Scan) (t : Token) : Except Malformed Scan := do
  let s ← (s.unwind (-1)).dropKey
  return (s.allowKey false).mark 3 t

def flowStart (s : Scan) (t : Token) : Except Malformed Scan := do
  let s ← s.noteKey
  return { s.mark 1 t with flowDepth := s.flowDepth + 1, keyAllowed := true }

def flowEnd (s : Scan) (t : Token) : Except Malformed Scan := do
  if s.flowDepth == 0 then throw .form
  let s ← s.dropKey
  return { s.mark 1 t with flowDepth := s.flowDepth - 1, keyAllowed := false }

def flowEntry (s : Scan) : Except Malformed Scan := do
  let s ← s.dropKey
  return (s.allowKey true).mark 1 .flowEntry

def blockEntry (s : Scan) : Except Malformed Scan := do
  if s.flowDepth == 0 && !s.keyAllowed then throw .form
  let s := if s.flowDepth == 0 then s.grow s.spot.column s.count .blockSequence else s
  let s ← s.dropKey
  return (s.allowKey true).mark 1 .blockEntry

def keyMark (s : Scan) : Except Malformed Scan := do
  if s.flowDepth == 0 && !s.keyAllowed then throw .form
  let s := if s.flowDepth == 0 then s.grow s.spot.column s.count .blockMapping else s
  let s ← s.dropKey
  return (s.allowKey (s.flowDepth == 0)).mark 1 .key

def valueMark (s : Scan) : Except Malformed Scan := do
  match s.keys.lookup s.flowDepth with
  | some k =>
    let s := { s with keys := s.keys.filter (·.1 != s.flowDepth) }
    let s := s.insert k.position .key
    let s := if s.flowDepth == 0 then s.grow k.column k.position .blockMapping else s
    return (s.allowKey false).mark 1 .value
  | none =>
    if s.flowDepth == 0 && !s.keyAllowed then throw .form
    let s := if s.flowDepth == 0 then s.grow s.spot.column s.count .blockMapping else s
    let s ← (s.allowKey (s.flowDepth == 0)).dropKey
    return s.mark 1 .value

/-! ## Names and tags -/

/-- Read the name of an anchor or an alias, behind its indicator. -/
def anchorName (s : Spot) : Except Malformed (String × Spot) :=
  let (name, t) := s.step.takeWhile isHandleChar
  let ends (c : Char) : Bool := isGap c || "?:,]\x7d%@\x60".toList.contains c
  if name.isEmpty || !ends t.head then .error .form else .ok (String.ofList name, t)

/-- Read the handle of a tag. -/
def tagHandle (s : Spot) : Except Malformed (String × Spot) :=
  if s.head != '!' then .error .form
  else
    let (name, t) := s.step.takeWhile isHandleChar
    if s.peek 1 == ' ' then .ok ("!", s.step)
    else if t.head == '!' then .ok ("!" ++ String.ofList name ++ "!", t.step)
    else .error .form

/-- Read escaped bytes, which make text together. -/
def uriEscapes : Nat → Spot → Except Malformed (List UInt8 × Spot)
  | 0, s => .ok ([], s)
  | n + 1, s =>
    if s.head != '%' then .ok ([], s)
    else
      let digits := s.step.rest.take 2
      if digits.length < 2 || !digits.all isHexDigit then .error .form
      else do
        let (bytes, t) ← uriEscapes n (s.advance 3)
        return (UInt8.ofNat (hexValue digits) :: bytes, t)

def isUriChar (c : Char) : Bool :=
  c.isAlphanum || "-;/?:@&=+$,_.!~*'()[]".toList.contains c

def uriFrom : Nat → Spot → Except Malformed (List Char × Spot)
  | 0, s => .ok ([], s)
  | n + 1, s =>
    let (cs, t) := s.takeWhile isUriChar
    if t.head != '%' then .ok (cs, t)
    else do
      let (bytes, u) ← uriEscapes t.size t
      match String.fromUTF8? ⟨bytes.toArray⟩ with
      | none => throw .form
      | some text =>
        let (more, v) ← uriFrom n u
        return (cs ++ text.toList ++ more, v)

/-- Read the name of a tag. -/
def tagName (s : Spot) : Except Malformed (String × Spot) := do
  let (cs, t) ← uriFrom s.size s
  if t.index == s.index then throw .form
  return (String.ofList cs, t)

/-- Read a tag. -/
def tagText (s : Spot) : Except Malformed (TagText × Spot) := do
  let (text, t) ←
    if s.peek 1 == '<' then do
      let (name, t) ← tagName (s.advance 2)
      if t.head != '>' then throw .form
      pure ((⟨none, name⟩ : TagText), t.step)
    else if isGap (s.peek 1) then pure (⟨none, "!"⟩, s.step)
    else do
      let word := s.step.rest.takeWhile fun c => !isWordEnd c
      let (handle, t) ← if word.contains '!' then tagHandle s else pure ("!", s.step)
      let (name, u) ← tagName t
      pure (⟨some handle, name⟩, u)
  if !isWordEnd t.head then throw .form
  return (text, t)

/-! ## Directives -/

/-- Read a number of a version. -/
def versionNumber (s : Spot) : Except Malformed (Nat × Spot) :=
  let (digits, t) := s.takeWhile Char.isDigit
  if digits.isEmpty then .error .form
  else .ok (digits.foldl (fun n c => 10 * n + (c.toNat - 48)) 0, t)

/-- Read a directive. -/
def directive (s : Spot) : Except Malformed (Token × Spot) := do
  let (name, t) := s.step.takeWhile isHandleChar
  if name.isEmpty || !isWordEnd t.head then throw .form
  let (token, u) ←
    match String.ofList name with
    | "YAML" => do
      let (major, u) ← versionNumber (t.skipWhile (· == ' '))
      if u.head != '.' then throw .form
      let (_, v) ← versionNumber u.step
      if !isWordEnd v.head then throw .form
      pure (Token.version major, v)
    | "TAG" => do
      let (handle, u) ← tagHandle (t.skipWhile (· == ' '))
      if u.head != ' ' then throw .form
      let (lead, v) ← tagName (u.skipWhile (· == ' '))
      if !isWordEnd v.head then throw .form
      pure (Token.tagHandle handle lead, v)
    | _ => pure (Token.directive, t.skipWhile fun c => !isLineEnd c)
  return (token, ← u.ignoreLine)

/-! ## Steps -/

/-- Read a token that may be a key. -/
def keyToken {α : Type} (s : Scan) (read : Spot → Except Malformed (α × Spot))
    (token : α → Token) : Except Malformed Scan := do
  let s ← s.noteKey
  let (x, t) ← read s.spot
  return { (s.allowKey false).emit (token x) with spot := t }

/-- Read a plain scalar. -/
def plain (s : Scan) : Except Malformed Scan := do
  let s ← s.noteKey
  let scalar := readPlain (s.flowDepth > 0) (s.indent + 1) s.spot
  return { s.emit (.scalar true (String.ofList scalar.text)) with
    spot := scalar.spot, keyAllowed := scalar.brokeLine }

/-- Read a block scalar. -/
def block (s : Scan) (isFolded : Bool) : Except Malformed Scan := do
  let s ← s.dropKey
  let (text, t) ← readBlock isFolded s.indent s.spot
  return { (s.allowKey true).emit (.scalar false text) with spot := t }

/-- Pass over blanks, comments and line breaks. -/
def toNextFrom : Nat → Scan → Scan
  | 0, s => s
  | n + 1, s =>
    let t := s.spot.skipComment
    if isBreak t.head then
      let s := { s with spot := t.lineBreak.2 }
      toNextFrom n (if s.flowDepth == 0 then s.allowKey true else s)
    else { s with spot := t }

/-- Pass over what leads the next token. A byte order mark may lead the text. -/
def toNext (s : Scan) : Scan :=
  let marked := s.spot.index == 0 && s.spot.head == '\ufeff'
  let s := if marked then { s with spot := s.spot.step } else s
  toNextFrom (s.spot.size + 1) s

/-- A plain scalar may start with the character, given the next one. -/
def startsPlain (inFlow : Bool) (c next : Char) : Bool :=
  !(isGap c || "-?:,[]\x7b\x7d#&*!|>'\"%@\x60".toList.contains c) ||
    (!isGap next && (c == '-' || (!inFlow && (c == '?' || c == ':'))))

/-- Read the next token, which starts at the spot. -/
def next (s : Scan) : Except Malformed Scan :=
  let p := s.spot
  let inFlow := s.flowDepth > 0
  let c := p.head
  let following := p.peek 1
  if c == '%' && p.column == 0 then do
    let s ← (s.unwind (-1)).dropKey
    let (token, t) ← directive p
    return { (s.allowKey false).emit token with spot := t }
  else if p.column == 0 && p.atMark ['-', '-', '-'] then s.documentMark .documentStart
  else if p.column == 0 && p.atMark ['.', '.', '.'] then s.documentMark .documentEnd
  else if c == '[' then s.flowStart .sequenceStart
  else if c == '\x7b' then s.flowStart .mappingStart
  else if c == ']' then s.flowEnd .sequenceEnd
  else if c == '\x7d' then s.flowEnd .mappingEnd
  else if c == ',' then s.flowEntry
  else if c == '-' && isGap following then s.blockEntry
  else if c == '?' && (inFlow || isGap following) then s.keyMark
  else if c == ':' && (inFlow || isGap following) then s.valueMark
  else if c == '*' then s.keyToken anchorName .alias
  else if c == '&' then s.keyToken anchorName .anchor
  else if c == '!' then s.keyToken tagText .tag
  else if c == '|' && !inFlow then s.block false
  else if c == '>' && !inFlow then s.block true
  else if c == '\'' then s.keyToken (readQuoted false) (.scalar false)
  else if c == '"' then s.keyToken (readQuoted true) (.scalar false)
  else if startsPlain inFlow c following then s.plain
  else .error .form

/-- Read tokens up to the end of the text. -/
def run : Nat → Scan → Except Malformed (List Token)
  | 0, _ => .error .form
  | n + 1, s => do
    let s ← s.toNext.dropStale
    let s := s.unwind s.spot.column
    if s.spot.rest.isEmpty then
      let s ← (s.unwind (-1)).dropKey
      return (s.emit .streamEnd).tokens.reverse
    else run n (← s.next)

end Scan

/-- The tokens of a text. -/
def Token.ofText (text : List Char) : Except Malformed (List Token) :=
  if text.all isAllowed then Scan.run (text.length + 1) (.start text) else .error .form

end SliceLint.Yaml
