/-!
# Binary floating-point numbers

A number of 64 bits is an infinity, no number at all, or a sign with a whole number of 53 bits
times a power of two. All arithmetic is exact arithmetic on whole numbers followed by one
rounding to the nearest; a tie goes to the even neighbour.
-/

namespace SliceLint

/-- A floating-point number. A finite one is `± significand * 2 ^ exponent`. -/
inductive Binary64 where
  | nan
  | infinite (negative : Bool)
  | finite (negative : Bool) (significand : Nat) (exponent : Int)
deriving DecidableEq, Repr, Inhabited

namespace Binary64

/-- The quotient rounded to the nearest whole number, a tie to the even one. -/
def roundQuotient (num den : Nat) : Nat :=
  let q := num / den
  let r := num % den
  if 2 * r < den || (2 * r == den && q % 2 == 0) then q else q + 1

/-- The least exponent of a finite number. -/
def leastExponent : Int := -1074

/-- The greatest exponent of a finite number. -/
def greatestExponent : Int := 971

def zero (negative : Bool) : Binary64 := finite negative 0 leastExponent

/-- A quotient as a multiple of a power of two, rounded. -/
def scaled (num den : Nat) (e : Int) : Nat :=
  roundQuotient (num * Nat.pow 2 (-e).toNat) (den * Nat.pow 2 e.toNat)

/-- The nearest floating-point number to a quotient of whole numbers. -/
def ofQuotient (negative : Bool) (num den : Nat) : Binary64 :=
  if num = 0 then zero negative
  else
    let guess : Int := (num.log2 : Int) - den.log2 - 53
    let e := max leastExponent (if scaled num den guess < Nat.pow 2 53 then guess else guess + 1)
    let m := scaled num den e
    let (m, e) := if m ≥ Nat.pow 2 53 then (scaled num den (e + 1), e + 1) else (m, e)
    if e > greatestExponent then infinite negative else finite negative m e

/-- The magnitude of a finite number as a quotient. -/
def quotient (significand : Nat) (exponent : Int) : Nat × Nat :=
  (significand * Nat.pow 2 exponent.toNat, Nat.pow 2 (-exponent).toNat)

/-- The nearest floating-point number to a decimal one, `digits * 10 ^ exponent`. -/
def ofDecimal (negative : Bool) (digits : Nat) (exponent : Int) : Binary64 :=
  let size : Int := (Nat.toDigits 10 digits).length
  if digits = 0 || size + exponent < -400 then zero negative
  else if size + exponent > 400 then infinite negative
  else ofQuotient negative (digits * Nat.pow 10 exponent.toNat) (Nat.pow 10 (-exponent).toNat)

/-- Multiply by a whole number that is not zero. -/
def scaleUp (x : Binary64) (n : Nat) : Binary64 :=
  match x with
  | finite s m e => ofQuotient s ((quotient m e).1 * n) (quotient m e).2
  | x => x

/-- Divide by a whole number that is not zero. -/
def scaleDown (x : Binary64) (n : Nat) : Binary64 :=
  match x with
  | finite s m e => ofQuotient s (quotient m e).1 ((quotient m e).2 * n)
  | x => x

/-- A finite number as a whole multiple of the least power of two. -/
def multiple (negative : Bool) (significand : Nat) (exponent : Int) : Int :=
  let n : Nat := significand * Nat.pow 2 (exponent - leastExponent).toNat
  if negative then -(n : Int) else n

/-- The sum of two numbers. A sum of zero is negative only if both numbers are. -/
def add (x y : Binary64) : Binary64 :=
  match x, y with
  | nan, _ | _, nan => nan
  | infinite s, infinite t => if s == t then infinite s else nan
  | infinite s, _ | _, infinite s => infinite s
  | finite s m e, finite t n f =>
    let total := multiple s m e + multiple t n f
    if total == 0 then zero (s && t)
    else ofQuotient (total < 0) total.natAbs (Nat.pow 2 leastExponent.natAbs)

/-- The number with the other sign. -/
def negate (x : Binary64) : Binary64 :=
  match x with
  | nan => nan
  | infinite s => infinite !s
  | finite s m e => finite (!s) m e

/-- The number is less than a whole number. -/
def isBelow (x : Binary64) (n : Nat) : Bool :=
  match x with
  | nan => false
  | infinite negative => negative
  | finite negative m e => negative || (quotient m e).1 < n * (quotient m e).2

/-- The number as a whole number, if it is one. -/
def toInt? (x : Binary64) : Option Int :=
  match x with
  | finite negative m e =>
    let (num, den) := quotient m e
    if num % den = 0 then some (if negative then -((num / den : Nat) : Int) else (num / den : Nat))
    else none
  | _ => none

/-- The numbers are equal; zero has no sign here. -/
def same (x y : Binary64) : Bool :=
  match x, y with
  | infinite s, infinite t => s == t
  | finite s m e, finite t n f => m == n && (m == 0 || (s == t && e == f))
  | _, _ => false

end Binary64

end SliceLint
