import SliceLint.Config.Reading
import SliceLint.Report.JsonDocument

/-!
# Reading JSON

A document is read from its text the way any JSON is: blanks may stand between its parts, a
character of a text may be escaped in each of the ways there are, and where an object has a key
twice the last value counts, in the place of the first.

The kinds of values are those that documents have here. A text with any other value in it (`null`, a
truth value, a number with a fraction or an exponent) is read as no document, and so is a text that
escapes half of a surrogate pair, which is no character.

Each function reads something in front of a text and gives what stands behind it. Those that repeat
themselves take a bound on the number of repetitions, for which the number of characters will do.
-/

namespace SliceLint.JsonDocument

/-! ## Blanks -/

/-- A character that may stand between the parts of a document. -/
def isBlank (c : Char) : Bool := c == ' ' || c == '\n' || c == '\r' || c == '\t'

def skipBlanks (cs : List Char) : List Char := cs.dropWhile isBlank

/-! ## Texts -/

/-- The number that a hexadecimal digit stands for. -/
def hexDigit? (c : Char) : Option Nat :=
  if '0' ≤ c ∧ c ≤ '9' then some (c.toNat - '0'.toNat)
  else if 'a' ≤ c ∧ c ≤ 'f' then some (c.toNat - 'a'.toNat + 10)
  else if 'A' ≤ c ∧ c ≤ 'F' then some (c.toNat - 'A'.toNat + 10)
  else none

/-- The number of four hexadecimal digits. -/
def codeUnit? : List Char → Option (Nat × List Char)
  | a :: b :: c :: d :: rest => do
    let a ← hexDigit? a
    let b ← hexDigit? b
    let c ← hexDigit? c
    let d ← hexDigit? d
    return (((a * 16 + b) * 16 + c) * 16 + d, rest)
  | _ => none

def isHighSurrogate (n : Nat) : Bool := 0xd800 ≤ n && n < 0xdc00

def isLowSurrogate (n : Nat) : Bool := 0xdc00 ≤ n && n < 0xe000

/-- The character of an escape that gives a number, behind its `u`. A pair of surrogates gives one
character. -/
def numbered? (cs : List Char) : Option (Char × List Char) := do
  let (first, rest) ← codeUnit? cs
  if isHighSurrogate first then
    match rest with
    | '\\' :: 'u' :: rest =>
      let (second, rest) ← codeUnit? rest
      if isLowSurrogate second then
        return (Char.ofNat (0x10000 + (first - 0xd800) * 0x400 + (second - 0xdc00)), rest)
      else none
    | _ => none
  else if isLowSurrogate first then none
  else return (Char.ofNat first, rest)

/-- The character that a letter stands for behind a backslash. -/
def lettered? : Char → Option Char
  | '"' => some '"'
  | '\\' => some '\\'
  | '/' => some '/'
  | 'b' => some '\x08'
  | 'f' => some '\x0c'
  | 'n' => some '\n'
  | 'r' => some '\r'
  | 't' => some '\t'
  | _ => none

/-- One character of a text. -/
def character? : List Char → Option (Char × List Char)
  | '\\' :: 'u' :: rest => numbered? rest
  | '\\' :: c :: rest => (lettered? c).map fun d => (d, rest)
  | c :: rest => if c == '\\' || c.toNat < 32 then none else some (c, rest)
  | [] => none

/-- The characters of a text up to the quote that ends it. -/
def characters? : Nat → List Char → Option (List Char × List Char)
  | 0, _ => none
  | fuel + 1, cs =>
    match cs with
    | '"' :: rest => some ([], rest)
    | _ => do
      let (c, rest) ← character? cs
      let (more, rest) ← characters? fuel rest
      return (c :: more, rest)

/-! ## Numbers -/

/-- A number without a sign. Only zero starts with the digit zero. -/
def natural? (cs : List Char) : Option (Nat × List Char) :=
  let digits := cs.takeWhile Char.isDigit
  if digits.isEmpty || digits.head? == some '0' && digits.length != 1 then none
  else some (Nat.ofDigitChars 10 digits 0, cs.dropWhile Char.isDigit)

def integer? : List Char → Option (Int × List Char)
  | '-' :: rest => (natural? rest).map fun (n, rest) => (-(n : Int), rest)
  | cs => (natural? cs).map fun (n, rest) => ((n : Int), rest)

/-! ## Documents -/

/-- The fields of an object, each key once. -/
def merged (fields : List (String × JsonDocument)) : List (String × JsonDocument) :=
  fields.foldl (fun kept (key, value) => putEntry kept key value) []

mutual

/-- A value. -/
def value? : Nat → List Char → Option (JsonDocument × List Char)
  | 0, _ => none
  | fuel + 1, cs =>
    match cs with
    | '"' :: rest => (characters? fuel rest).map fun (s, rest) => (.text (String.ofList s), rest)
    | '[' :: rest =>
      match skipBlanks rest with
      | ']' :: rest => some (.list [], rest)
      | rest => (items? fuel rest).map fun (items, rest) => (.list items, rest)
    | '\x7b' :: rest =>
      match skipBlanks rest with
      | '\x7d' :: rest => some (.object [], rest)
      | rest => (fields? fuel rest).map fun (fields, rest) => (.object (merged fields), rest)
    | _ => (integer? cs).map fun (n, rest) => (.number n, rest)

/-- The items of a list, at least one, and the bracket behind them. -/
def items? : Nat → List Char → Option (List JsonDocument × List Char)
  | 0, _ => none
  | fuel + 1, cs => do
    let (item, rest) ← value? fuel cs
    match skipBlanks rest with
    | ']' :: rest => return ([item], rest)
    | ',' :: rest =>
      let (items, rest) ← items? fuel (skipBlanks rest)
      return (item :: items, rest)
    | _ => none

/-- The fields of an object, at least one, and the brace behind them. -/
def fields? : Nat → List Char → Option (List (String × JsonDocument) × List Char)
  | 0, _ => none
  | fuel + 1, cs =>
    match cs with
    | '"' :: rest => do
      let (key, rest) ← characters? fuel rest
      match skipBlanks rest with
      | ':' :: rest =>
        let (value, rest) ← value? fuel (skipBlanks rest)
        match skipBlanks rest with
        | '\x7d' :: rest => return ([(String.ofList key, value)], rest)
        | ',' :: rest =>
          let (fields, rest) ← fields? fuel (skipBlanks rest)
          return ((String.ofList key, value) :: fields, rest)
        | _ => none
      | _ => none
    | _ => none

end

/-- The document that a text is, with blanks around it. -/
def read? (s : String) : Option JsonDocument :=
  match value? (s.toList.length + 1) (skipBlanks s.toList) with
  | some (document, rest) => if (skipBlanks rest).isEmpty then some document else none
  | none => none

end SliceLint.JsonDocument
