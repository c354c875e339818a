import SliceLint.Number.Binary64
import SliceLint.Text.Lines
import SliceLint.Text.Word

/-!
# Decimal texts of floating-point numbers

**Shortest text** (`shortest`). The fewest digits that read back as the same number, and of those
the nearest to it. Up to sixteen digits before the point and three zeros behind it are written
out; other numbers have an exponent of at least two digits.

**Fixed places** (`fixed`). The exact value, rounded to so many places; a tie goes to the even
neighbour.

**Reading** (`read?`). Digits of any script, with single underscores between them; white space
around the number does not count.
-/

namespace SliceLint.Binary64

open Text

/-! ## Shortest text -/

/-- The number of zeros right behind the point of a quotient less than one; at most so many. -/
def zerosBehind (den : Nat) : Nat → Nat → Nat
  | 0, _ => 0
  | n + 1, num => if num * 10 < den then zerosBehind den n (num * 10) + 1 else 0

/-- The number of decimal digits before the point of a quotient that is at least one; otherwise
the number of zeros behind the point, negated. -/
def pointPosition (num den : Nat) : Int :=
  if num ≥ den then (Nat.toDigits 10 (num / den)).length else -(zerosBehind den 400 num : Int)

/-- A decimal number `digits * 10 ^ exponent` as a quotient. -/
def decimalQuotient (digits : Nat) (exponent : Int) : Nat × Nat :=
  (digits * Nat.pow 10 exponent.toNat, Nat.pow 10 (-exponent).toNat)

/-- One quotient is less than another. -/
def quotientLess (x y : Nat × Nat) : Bool := x.1 * y.2 < y.1 * x.2

/-- The distance between two quotients. -/
def distance (x y : Nat × Nat) : Nat × Nat :=
  let a := x.1 * y.2
  let b := y.1 * x.2
  (max a b - min a b, x.2 * y.2)

/-- A decimal number reads back as a finite one. -/
def readsBack (significand : Nat) (exponent : Int) (digits : Nat) (power : Int) : Bool :=
  ofDecimal false digits power == finite false significand exponent

/-- The nearest decimal of so many digits that reads back, if there is one. -/
def decimalOfSize? (significand : Nat) (exponent : Int) (size : Nat) : Option (Nat × Int) :=
  let value := quotient significand exponent
  let power := pointPosition value.1 value.2 - size
  let low := value.1 * Nat.pow 10 (-power).toNat / (value.2 * Nat.pow 10 power.toNat)
  let high := low + 1
  let reads (d : Nat) : Bool := d != 0 && readsBack significand exponent d power
  let far (d : Nat) : Nat × Nat := distance value (decimalQuotient d power)
  if reads low && reads high then
    if quotientLess (far high) (far low) then some (high, power)
    else if quotientLess (far low) (far high) then some (low, power)
    else some (if low % 2 == 0 then low else high, power)
  else if reads low then some (low, power)
  else if reads high then some (high, power)
  else none

/-- The digits of the shortest decimal, and the place of the point from their start. -/
def shortestDigits (significand : Nat) (exponent : Int) : List Char × Int :=
  let found := (List.range 17).findSome? fun n => decimalOfSize? significand exponent (n + 1)
  let (digits, power) := found.getD (0, 0)
  let written := Nat.toDigits 10 digits
  let kept := (written.reverse.dropWhile (· == '0')).reverse
  (kept, written.length + power)

/-- The digits with a point at the given place. -/
def positional (digits : List Char) (point : Int) : List Char :=
  if point ≤ 0 then '0' :: '.' :: List.replicate (-point).toNat '0' ++ digits
  else
    let whole := digits.take point.toNat
    let part := digits.drop point.toNat
    whole ++ List.replicate (point.toNat - whole.length) '0' ++ '.' ::
      (if part.isEmpty then ['0'] else part)

/-- The digits with a point behind the first, and an exponent. -/
def scientific (digits : List Char) (point : Int) : List Char :=
  let e := point - 1
  let size := Nat.toDigits 10 e.natAbs
  let mark := ['e', if e < 0 then '-' else '+']
  let part := match digits with
    | first :: [] => [first]
    | first :: rest => first :: '.' :: rest
    | [] => []
  part ++ mark ++ List.replicate (2 - size.length) '0' ++ size

/-- The shortest text that reads back as the number. -/
def shortest (x : Binary64) : String :=
  match x with
  | nan => "nan"
  | infinite negative => if negative then "-inf" else "inf"
  | finite negative m e =>
    let sign := if negative then ['-'] else []
    let text :=
      if m = 0 then ['0', '.', '0']
      else
        let (digits, point) := shortestDigits m e
        if -4 < point && point ≤ 16 then positional digits point else scientific digits point
    String.ofList (sign ++ text)

/-! ## Fixed places -/

/-- The number with so many places behind the point. -/
def fixed (places : Nat) (x : Binary64) : String :=
  match x with
  | nan => "nan"
  | infinite negative => if negative then "-inf" else "inf"
  | finite negative m e =>
    let value := quotient m e
    let n := roundQuotient (value.1 * Nat.pow 10 places) value.2
    let whole := Nat.toDigits 10 (n / Nat.pow 10 places)
    let part := Nat.toDigits 10 (n % Nat.pow 10 places)
    let sign := if negative then ['-'] else []
    String.ofList <| sign ++ whole ++
      if places = 0 then [] else '.' :: List.replicate (places - part.length) '0' ++ part

/-! ## Reading -/

/-- The value of a run of decimal digits. -/
def valueOf (digits : List Char) : Nat :=
  digits.foldl (fun n c => 10 * n + (decimalValue? c).getD 0) 0

/-- The length of a run of digits with single underscores between them; the first argument tells
whether a digit comes before. -/
def digitsLength (inside : Bool) : List Char → Nat
  | [] => 0
  | c :: rest =>
    if isDecimal c then digitsLength true rest + 1
    else if inside && c == '_' && isDecimal (rest.headD '_') then digitsLength false rest + 1
    else 0

/-- The digits at the front, without the underscores between them, and what follows. -/
def readDigits (cs : List Char) : List Char × List Char :=
  let n := digitsLength false cs
  ((cs.take n).filter (· != '_'), cs.drop n)

/-- The sign at the front: whether it is a minus, and what follows. -/
def readSign : List Char → Bool × List Char
  | '-' :: rest => (true, rest)
  | '+' :: rest => (false, rest)
  | rest => (false, rest)

/-- The exponent that ends a number; zero when nothing is left. -/
def readExponent? : List Char → Option Int
  | [] => some 0
  | c :: rest =>
    if c.toLower != 'e' then none
    else
      let (negative, rest) := readSign rest
      match readDigits rest with
      | ([], _) => none
      | (digits, []) => some (if negative then -(valueOf digits : Int) else valueOf digits)
      | _ => none

/-- Read a decimal number without its sign. -/
def readMagnitude? (negative : Bool) (cs : List Char) : Option Binary64 :=
  let (whole, rest) := readDigits cs
  let (part, rest) := match rest with
    | '.' :: more => readDigits more
    | _ => ([], rest)
  if whole.isEmpty && part.isEmpty then none
  else
    (readExponent? rest).map fun e =>
      ofDecimal negative (valueOf (whole ++ part)) (e - part.length)

/-- Read a number. -/
def read? (text : String) : Option Binary64 :=
  let (negative, cs) := readSign (trimList isSpace text.toList)
  let lower := String.ofList (cs.map Char.toLower)
  if lower == "inf" || lower == "infinity" then some (infinite negative)
  else if lower == "nan" then some nan
  else readMagnitude? negative cs

end SliceLint.Binary64
