import SliceLint.Text.Printable

/-!
# Quoted texts

A text in quotes: in single quotes, unless it has one and no double quote. The quote and the
backslash are escaped, and so is every character that is not printable.
-/

namespace SliceLint.Text

/-- So many hexadecimal digits of a number. -/
def hexDigits : Nat → Nat → List Char
  | 0, _ => []
  | n + 1, x => hexDigits n (x / 16) ++ [Nat.digitChar (x % 16)]

/-- A character inside the given quotes. -/
def escaped (quote : Char) (c : Char) : List Char :=
  if c == quote || c == '\\' then ['\\', c]
  else if c == '\n' then ['\\', 'n']
  else if c == '\r' then ['\\', 'r']
  else if c == '\t' then ['\\', 't']
  else if isPrintable c then [c]
  else if c.toNat < 0x100 then '\\' :: 'x' :: hexDigits 2 c.toNat
  else if c.toNat < 0x10000 then '\\' :: 'u' :: hexDigits 4 c.toNat
  else '\\' :: 'U' :: hexDigits 8 c.toNat

/-- The quote that a text is put in. -/
def quoteOf (cs : List Char) : Char := if cs.contains '\'' && !cs.contains '"' then '"' else '\''

/-- A text in quotes. -/
def quoted (s : String) : String :=
  let q := quoteOf s.toList
  String.ofList (q :: s.toList.flatMap (escaped q) ++ [q])

/-- A list of texts, each in quotes. -/
def quotedList (texts : List String) : String := "[" ++ ", ".intercalate (texts.map quoted) ++ "]"

/-- A byte inside the given quotes. -/
def escapedByte (quote : Char) (b : UInt8) : List Char :=
  let c := Char.ofNat b.toNat
  if c.toNat < 127 && isPrintable c || c == '\n' || c == '\r' || c == '\t' then escaped quote c
  else '\\' :: 'x' :: hexDigits 2 b.toNat

/-- Bytes in quotes, after a mark. -/
def quotedBytes (bytes : List UInt8) : String :=
  let q := quoteOf (bytes.map fun b => Char.ofNat b.toNat)
  String.ofList ('b' :: q :: bytes.flatMap (escapedByte q) ++ [q])

end SliceLint.Text
