import SliceLint.Source.Program

/-!
# Where a fault shows

A text that is no program is repaired at the least cost, and the fault is reported where the
first repair begins. A repair leaves out a stretch of tokens, or supposes one token.

**Leaving out.** The stretch starts at or before the token refused, and the token after it must
be acceptable there; of the starts for which it is, the latest counts. A repair costs 500, with
100 for each token, 30 for each line and 1 for each byte that it leaves out.

**Supposing.** A token supposed before the refused one costs 610, whatever it is. The refused
token must be acceptable after it.

No statement may end at a repair without a semicolon. A name before a colon in an object is not
given up without the colon, and brackets that are closed are left out together.
-/

namespace SliceLint.Source

/-- The part of the text that one token covers. -/
structure Span where
  first : Nat
  past : Nat
  /-- The token may be an identifier. -/
  isWord : Bool
  /-- The token can only stand inside a regular expression. -/
  isPattern : Bool
  lexeme : List Char
deriving Repr

namespace Span

/-- Punctuation of several characters. -/
def longTokens : List String :=
  [">>>=", "...", "===", "!==", "**=", "<<=", ">>=", ">>>", "&&=", "||=", "??=", "=>", "==",
    "!=", "<=", ">=", "&&", "||", "??", "?.", "++", "--", "+=", "-=", "*=", "/=", "%=", "&=",
    "|=", "^=", "<<", ">>", "**"]

/-- The number of characters of a closed string or template. -/
def quotedLength? (q : Char) : List Char → Option Nat
  | [] => none
  | '\\' :: _ :: rest => (quotedLength? q rest).map (· + 2)
  | c :: rest =>
    if c == q then some 1
    else if c == '\n' && q != '\x60' then none
    else (quotedLength? q rest).map (· + 1)

/-- The number of characters of the token at the front. -/
def lengthOf (markup : Bool) (cs : List Char) : Nat :=
  match cs with
  | [] => 0
  | '/' :: '>' :: _ => if markup then 2 else 1
  | c :: rest =>
    if c == '"' || c == '\'' || c == '\x60' then
      match quotedLength? c rest with
      | some n => n + 1
      | none => 1
    else
      match wordLength? cs with
      | some n => n
      | none =>
        match numberLength? cs with
        | some n => n
        | none =>
          match longTokens.find? fun s => s.toList.isPrefixOf cs with
          | some s => s.length
          | none => 1
where
  /-- The length of the word at the front. -/
  wordLength? (cs : List Char) : Option Nat := Recogniser.wordLength? cs

/-- The tokens of a text, blanks and comments left out. -/
def tokens (markup : Bool) (text : List Char) : List Span :=
  let rec loop : Nat → Cursor → List Span
    | 0, _ => []
    | n + 1, c =>
      let d := c.token
      if d.rest.isEmpty then []
      else
        let k := max 1 (lengthOf markup d.rest)
        let isSlash := d.rest.take k == ['/']
        let here : Span :=
          ⟨d.index, d.index + k, isNameStart d.head, false, d.rest.take k⟩
        let e := d.advance k
        let m := if isSlash then ((patternLength e.rest)) else 0
        if m = 0 then here :: loop n e
        else
          here :: ⟨e.index, e.index + m, false, true, e.rest.take m⟩ :: loop n (e.advance m)
  let c : Cursor := .ofText text []
  loop c.limit c
where
  /-- The length of what could be the inside of a regular expression. -/
  patternLength (cs : List Char) : Nat :=
    (cs.takeWhile fun c => c != '/' && c != '\\' && c != '[' && c != '\n').length

end Span

/-! ## Leaving out -/

/-- Where a stretch may start: an index of the text, and the symbols from there to the token
refused. -/
structure Start where
  index : Nat
  symbols : Nat
  /-- Where the token before the stretch ends. -/
  lastPast : Nat

/-- Opening and closing brackets change the number of closed groups still open to the left. -/
def groupDepth (s : Span) (depth : Nat) : Nat :=
  match s.lexeme with
  | [c] =>
    if [')', ']', '\x7d'].contains c then depth + 1
    else if ['(', '[', '\x7b'].contains c then depth - 1
    else depth
  | _ => depth

/-- The token is the colon after the name of a property. -/
def isKeyColon (s : Span) (before : List Span) : Bool :=
  s.lexeme == [':'] &&
    match before with
    | key :: opener :: _ =>
      (key.isWord || [some '"', some '\''].contains key.lexeme.head?) &&
        [['\x7b'], [',']].contains opener.lexeme
    | _ => false

/-- The starts of stretches, the latest first, among the tokens before the one refused, which
come in reverse. -/
def startsFrom (depth symbols : Nat) : List Span → List Start
  | [] => []
  | s :: before =>
    let depth := groupDepth s depth
    let symbols := if depth = 0 then symbols + 1 else symbols
    let later := startsFrom depth symbols before
    if depth = 0 && !isKeyColon s before then
      ⟨s.first, symbols, (before.head?.map Span.past).getD 0⟩ :: later
    else later

/-- Turn the characters of a stretch into blanks. -/
def blankOut (first past : Nat) (text : List Char) : List Char :=
  text.take first ++ List.replicate (past - first) ' ' ++ text.drop past

/-- Put a name that is no keyword in the place of a word. -/
def anonymise (s : Span) (text : List Char) : List Char :=
  if s.isWord then
    text.take s.first ++ List.replicate (s.past - s.first) '$' ++ text.drop s.past
  else text

/-- The token at an index is acceptable: the reader gets past it, or to the end. -/
def accepts (markup : Bool) (text : List Char) (seals : List Nat) (index : Nat) : Bool :=
  let o := readText markup text seals
  o.result?.isSome || index < o.farthest

/-- A repair: its cost, the index where it begins, and the text it leaves. -/
structure Repair where
  cost : Nat
  index : Nat
  text : List Char
  seals : List Nat

/-- A text that does not read, cut at the token refused. -/
structure Failure where
  text : List Char
  seals : List Nat
  /-- The tokens before the one refused, the nearest first. -/
  before : List Span
  /-- The token refused and those after it. -/
  after : List Span

/-- The cost of leaving out a stretch of so many symbols. -/
def stretchCost (text : List Char) (first past symbols : Nat) : Nat :=
  let cs := (text.drop first).take (past - first)
  500 + 100 * symbols + 30 * cs.count '\n' + cs.foldl (fun n c => n + c.utf8Size) 0

/-- The repair that leaves out everything up to the given token, of which the first `skipped`
tokens are the one refused and those that follow it, from the latest start possible. -/
def Failure.leaveOut? (f : Failure) (markup : Bool) (skipped past : Nat) (next : Option Span) :
    Option Repair :=
  let index := (next.map Span.first).getD f.text.length
  let nearest : Start :=
    ⟨(f.after.head?.map Span.first).getD f.text.length, 0, (f.before.head?.map Span.past).getD 0⟩
  let starts := (nearest :: startsFrom 0 0 f.before).filter fun s => s.index < past
  let repair (s : Start) : Repair :=
    ⟨stretchCost f.text s.index past (s.symbols + skipped), s.index,
      blankOut s.index past f.text, s.lastPast :: f.seals⟩
  let possible (s : Start) : Bool :=
    let r := repair s
    let tested := match next with
      | some t => if skipped = 0 then anonymise t r.text else r.text
      | none => r.text
    accepts markup tested r.seals index
  ((starts.take 40).find? possible).map repair

/-! ## Supposing -/

/-- Tokens that may be supposed. -/
def supposable : List String := ["a", ";", ")", "]", "\x7d", ">", "/>"]

/-- The repair that supposes a token before the one refused. -/
def Failure.suppose? (f : Failure) (markup : Bool) (s : String) : Option Repair :=
  let past := (f.before.head?.map Span.past).getD 0
  let insertion := ' ' :: s.toList ++ [' ']
  let insert (text : List Char) : List Char := text.take past ++ insertion ++ text.drop past
  let declares := match f.before.head?, f.after.head? with
    | some b, some a =>
      ["const".toList, "let".toList, "var".toList].contains b.lexeme && a.lexeme == ['=']
    | _, _ => false
  let seals := (past + 1 + s.length) :: f.seals
  let (tested, index) := match f.after.head? with
    | some t => (insert (anonymise t f.text), t.first + insertion.length)
    | none => (insert f.text, f.text.length + insertion.length)
  if declares || !accepts markup tested seals index then none
  else some ⟨610, past, insert f.text, seals⟩

/-! ## The least cost -/

/-- Where the first repair begins, among those of the least total cost, and that cost. -/
structure Place where
  cost : Nat
  index : Nat

/-- The cheaper of two; of equal ones the later. -/
def Place.cheaper (best? : Option Place) (p : Place) : Option Place :=
  match best? with
  | none => some p
  | some b =>
    if p.cost < b.cost || (p.cost == b.cost && b.index < p.index) then some p else some b

/-- Add a repair, with what the rest of the text still costs, unless it costs too much. -/
def Place.consider (rest : List Char → List Nat → Option Place) (best? : Option Place)
    (r : Repair) : Option Place :=
  if best?.any (·.cost < r.cost) then best?
  else
    match rest r.text r.seals with
    | none => best?
    | some p => Place.cheaper best? ⟨r.cost + p.cost, min r.index p.index⟩

/-- Leave out ever more tokens, while that may still be cheapest. -/
def Failure.leaving (f : Failure) (markup : Bool)
    (rest : List Char → List Nat → Option Place) (skipped past : Nat) (best? : Option Place) :
    List Span → Option Place
  | [] =>
    match f.leaveOut? markup skipped past none with
    | some r => Place.consider rest best? r
    | none => best?
  | t :: ts =>
    if best?.any (·.cost < 500 + 100 * skipped) then best?
    else
      let repair? := if t.isPattern then none else f.leaveOut? markup skipped past (some t)
      let best? := match repair? with
        | some r => Place.consider rest best? r
        | none => best?
      f.leaving markup rest (skipped + 1) t.past best? ts

/-- The place of the first repair of a text, for so many repairs. -/
def firstRepair? (markup : Bool) : Nat → List Char → List Nat → Option Place
  | 0, text, seals =>
    if (readText markup text seals).result?.isSome then some ⟨0, text.length⟩ else none
  | n + 1, text, seals =>
    let o := readText markup text seals
    if o.result?.isSome then some ⟨0, text.length⟩
    else
      let all := Span.tokens markup text
      let f : Failure :=
        ⟨text, seals, (all.filter (·.first < o.farthest)).reverse,
          all.filter (o.farthest ≤ ·.first)⟩
      let rest := firstRepair? markup n
      let supposed := (supposable.filterMap (f.suppose? markup)).foldl (Place.consider rest) none
      f.leaving markup rest 0 ((f.before.head?.map Span.past).getD 0) supposed f.after

/-- The index at which the first fault of a text shows. -/
def faultIndex (markup : Bool) (text : List Char) : Nat :=
  match firstRepair? markup 2 text [] with
  | some p => p.index
  | none => (Cursor.ofText text []).token.index

end SliceLint.Source
