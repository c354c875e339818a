import SliceLint.Source.Goal

/-!
# Literals

Numbers, strings, regular expressions and templates.
-/

namespace SliceLint.Source

open Recogniser

/-! ## Numbers -/

def isHexDigit (c : Char) : Bool := c.isDigit || ('a' ≤ c.toLower && c.toLower ≤ 'f')

/-- The length of a run of digits, single underscores between them. -/
def digitsLength (digit : Char → Bool) : List Char → Nat
  | '_' :: c :: rest => if digit c then digitsLength digit (c :: rest) + 1 else 0
  | c :: rest => if digit c then digitsLength digit rest + 1 else 0
  | [] => 0

/-- As `digitsLength`, but an underscore may not come first. -/
def digitRun (digit : Char → Bool) (cs : List Char) : Nat :=
  if digit (cs.headD ' ') then digitsLength digit cs else 0

/-- The length of an exponent part, zero when there is none. -/
def exponentLength (cs : List Char) : Nat :=
  match cs with
  | e :: rest =>
    if e.toLower != 'e' then 0
    else
      let sign := match rest with
        | '+' :: _ | '-' :: _ => 1
        | _ => 0
      let n := digitRun Char.isDigit (rest.drop sign)
      if n = 0 then 0 else n + sign + 1
  | [] => 0

/-- The length of a number in a base given by its letter. -/
def radixLength (digit : Char → Bool) (rest : List Char) : Option Nat :=
  let n := digitRun digit rest
  if n = 0 then none
  else some (n + 2 + if (rest.drop n).head? == some 'n' then 1 else 0)

def numberLength? (cs : List Char) : Option Nat :=
  let decimal : Option Nat :=
    let whole := digitRun Char.isDigit cs
    match cs.drop whole with
    | '.' :: rest =>
      let part := digitRun Char.isDigit rest
      if whole = 0 && part = 0 then none
      else some (whole + 1 + part + exponentLength (rest.drop part))
    | 'n' :: _ => if whole = 0 then none else some (whole + 1)
    | rest => if whole = 0 then none else some (whole + exponentLength rest)
  match cs with
  | '0' :: x :: rest =>
    match x.toLower with
    | 'x' => (radixLength isHexDigit rest).or decimal
    | 'o' => (radixLength (fun c => '0' ≤ c && c ≤ '7') rest).or decimal
    | 'b' => (radixLength (fun c => c == '0' || c == '1') rest).or decimal
    | _ => decimal
  | _ => decimal

def number : Recogniser := leafOf "number" true numberLength?

/-! ## Text -/

/-- The length of an escape, backslash included. -/
def escapeLength? : List Char → Option Nat
  | '\\' :: 'x' :: a :: b :: _ => if isHexDigit a && isHexDigit b then some 4 else none
  | '\\' :: 'u' :: rest => nameEscape? ('\\' :: 'u' :: rest)
  | '\\' :: '\r' :: c :: _ => if c == '\n' || c == '\u2028' || c == '\u2029' then some 3 else some 2
  | '\\' :: c :: rest =>
    if c == 'x' then none
    else if '0' ≤ c && c ≤ '7' then
      some (1 + ((c :: rest).take 3 |>.takeWhile fun d => '0' ≤ d && d ≤ '7').length)
    else some 2
  | _ => none

/-- A leaf that follows directly, without blanks before it. -/
def immediate (kind : String) (named : Bool) (measure : List Char → Option Nat)
    (h : isPartKind named kind := by exact Eq.refl true) : Recogniser := fun c =>
    match measure c.rest with
    | none => pure ⟨c.index, none⟩
    | some 0 => pure ⟨c.index, none⟩
    | some n =>
      let (t, d) := c.takeLeaf kind named n h
      pure ⟨c.index, some ([t], d)⟩

/-- A run of characters that meet a condition. -/
def run (p : Char → Bool) (cs : List Char) : Option Nat := some (cs.takeWhile p).length

/-- The given characters, directly. -/
def exactly (s : String) : Recogniser :=
  let measure (cs : List Char) : Option Nat :=
    if s.toList.isPrefixOf cs then some s.length else none
  immediate s false measure (Eq.refl true)

/-- A string literal in the given quotes. -/
def quoted (q : Char) : Recogniser :=
  let mark := String.singleton q
  spanning "string" <| chain [
    token mark,
    many (choice [
      immediate "string_fragment" true
        (run fun c => c != q && c != '\\' && c != '\n' && c != '\r'),
      immediate "escape_sequence" true escapeLength?]),
    exactly mark]

def stringLiteral : Recogniser := choice [quoted '"', quoted '\'']

/-- The length of a character reference such as `&amp;`. -/
def referenceLength? : List Char → Option Nat
  | '&' :: '#' :: x :: rest =>
    let n := if x.toLower == 'x' then (rest.takeWhile isHexDigit).length
      else ((x :: rest).takeWhile Char.isDigit).length
    if x.toLower == 'x' then
      if 1 ≤ n && n ≤ 6 && (rest.drop n).head? == some ';' then some (n + 4) else none
    else if 1 ≤ n && n ≤ 5 && ((x :: rest).drop n).head? == some ';' then some (n + 3) else none
  | '&' :: rest =>
    let n := (rest.takeWhile Char.isAlpha).length
    if 1 ≤ n && n ≤ 30 && (rest.drop n).head? == some ';' then some (n + 2) else none
  | _ => none

/-- The length of a stretch of an attribute's text: no quote, and no start of a reference. -/
def attributeTextLength (q : Char) : List Char → Nat
  | [] => 0
  | '&' :: c :: rest =>
    if c == '#' || c.isAlpha || c == q then 0 else attributeTextLength q (c :: rest) + 1
  | c :: rest => if c == q then 0 else attributeTextLength q rest + 1

/-- The string value of a markup attribute. -/
def attributeText (q : Char) : Recogniser :=
  let mark := String.singleton q
  spanning "string" <| chain [
    token mark,
    many (choice [
      immediate "string_fragment" true fun cs => some (attributeTextLength q cs),
      immediate "html_character_reference" true referenceLength?]),
    exactly mark]

/-- The length of a stretch of a template between its escapes and substitutions. -/
def templateTextLength : List Char → Nat
  | [] => 0
  | '$' :: '\x7b' :: _ => 0
  | c :: rest => if c == '\x60' || c == '\\' then 0 else templateTextLength rest + 1

/-- A template literal; `part` reads what a substitution holds. -/
def template (kind substitution : String) (part : Recogniser)
    (hk : isPartKind true kind := by exact Eq.refl true)
    (hs : isPartKind true substitution := by exact Eq.refl true) : Recogniser :=
  node kind (chain [
    token "\x60",
    many (choice [
      immediate "string_fragment" true fun cs => some (templateTextLength cs),
      immediate "escape_sequence" true escapeLength?,
      node substitution (chain [exactly "$\x7b", part, rbrace]) hs]),
    exactly "\x60"]) hk

/-! ## Regular expressions -/

/-- The length of the pattern of a regular expression, up to its closing slash. -/
def patternLength? (inClass : Bool) : List Char → Option Nat
  | [] => none
  | '\n' :: _ => none
  | '\\' :: c :: rest => if c == '\n' then none else (patternLength? inClass rest).map (· + 2)
  | '/' :: rest => if inClass then (patternLength? true rest).map (· + 1) else some 0
  | '[' :: rest => (patternLength? true rest).map (· + 1)
  | ']' :: rest => (patternLength? false rest).map (· + 1)
  | _ :: rest => (patternLength? inClass rest).map (· + 1)

def regex : Recogniser :=
  node "regex" <| chain [
    token "/",
    role "pattern" (immediate "regex_pattern" true (patternLength? false)),
    exactly "/",
    optional (role "flags" (immediate "regex_flags" true (run Char.isLower)))]

end SliceLint.Source
