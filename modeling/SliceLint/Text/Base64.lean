/-!
# Base 64

Four characters stand for three bytes; the last group may be filled up by equals signs. Characters
outside the alphabet do not count, and the text ends with the equals sign that fills a group.
-/

namespace SliceLint.Text

/-- The value of a character of the alphabet. -/
def sextet? (c : Char) : Option Nat :=
  if 'A' ≤ c && c ≤ 'Z' then some (c.toNat - 65)
  else if 'a' ≤ c && c ≤ 'z' then some (c.toNat - 71)
  else if c.isDigit then some (c.toNat + 4)
  else if c == '+' then some 62
  else if c == '/' then some 63
  else none

/-- Read on, given the characters of the group read so far, the bits left over from them, and the
number of equals signs right behind them. -/
def base64From (size left fill : Nat) : List Char → Option (List UInt8)
  | [] => if size = 0 then some [] else none
  | c :: rest =>
    if c == '=' then
      if size < 2 then base64From size left fill rest
      else if size + fill + 1 ≥ 4 then some []
      else base64From size left (fill + 1) rest
    else
      match sextet? c with
      | none => base64From size left fill rest
      | some n =>
        match size with
        | 0 => base64From 1 n 0 rest
        | 1 => (base64From 2 (n % 16) 0 rest).map (UInt8.ofNat (4 * left + n / 16) :: ·)
        | 2 => (base64From 3 (n % 4) 0 rest).map (UInt8.ofNat (16 * left + n / 4) :: ·)
        | _ => (base64From 0 0 0 rest).map (UInt8.ofNat (64 * left + n) :: ·)

/-- The bytes that a text stands for. -/
def base64? (text : String) : Option (List UInt8) := base64From 0 0 0 text.toList

end SliceLint.Text
