import SliceLint.Text.Lines
import SliceLint.Text.Word

/-!
# Whole numbers in a base

A whole number may have a sign, the mark of its base (`0b`, `0o` or `0x`), and single underscores
between its digits. Decimal digits may come from any script; white space around the number does
not count.
-/

namespace SliceLint.Text

/-- The value of a digit or a letter. -/
def digitValue? (c : Char) : Option Nat :=
  match decimalValue? c with
  | some n => some n
  | none => if c.toLower.isLower then some (c.toLower.toNat - 87) else none

/-- The character is a digit of the base. -/
def isDigitOf (base : Nat) (c : Char) : Bool :=
  match digitValue? c with
  | some n => n < base
  | none => false

/-- Digits of a base with single underscores between them; the first argument tells whether a
digit comes before. -/
def areDigits (base : Nat) (inside : Bool) : List Char → Bool
  | [] => inside
  | c :: rest =>
    if isDigitOf base c then areDigits base true rest
    else inside && c == '_' && areDigits base false rest

/-- The letter that marks a base. -/
def baseMark? : Nat → Option Char
  | 2 => some 'b'
  | 8 => some 'o'
  | 16 => some 'x'
  | _ => none

/-- What follows the mark of a base, if it is there. -/
def withoutMark (base : Nat) : List Char → List Char
  | '0' :: c :: rest =>
    if baseMark? base == some c.toLower then
      match rest with
      | '_' :: digits => digits
      | digits => digits
    else '0' :: c :: rest
  | cs => cs

/-- Read a whole number without its sign. -/
def readNatural? (base : Nat) (cs : List Char) : Option Nat :=
  let digits := withoutMark base cs
  if areDigits base false digits then
    some (digits.foldl (fun n c => ((digitValue? c).map fun d => base * n + d).getD n) 0)
  else none

/-- Read a whole number. -/
def readInteger? (base : Nat) (text : String) : Option Int :=
  match trimList isSpace text.toList with
  | '-' :: rest => (readNatural? base rest).map fun n => -(n : Int)
  | '+' :: rest => (readNatural? base rest).map Int.ofNat
  | rest => (readNatural? base rest).map Int.ofNat

end SliceLint.Text
