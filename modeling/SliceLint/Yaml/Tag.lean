import SliceLint.Number.DecimalText
import SliceLint.Yaml.Token

/-!
# Tags

The tag of a node says what kind of value it stands for. A plain scalar without a tag gets one from
its form: truth values, numbers, dates, the null value, the merge key, and text for all else.

Whole numbers may be binary, octal or hexadecimal, and numbers may be written in sixties, as in
`190:20:30`. Digits may be grouped by underscores.
-/

namespace SliceLint.Yaml

/-- What a node stands for. -/
inductive Tag where
  | null
  | bool
  | int
  | float
  | binary
  | timestamp
  | text
  | sequence
  | mapping
  | set
  | orderedMap
  | pairs
  | merge
  | value
  | unknown
deriving DecidableEq, Repr

/-- The tag with the given name. -/
def Tag.ofName (name : String) : Tag :=
  match name with
  | "tag:yaml.org,2002:null" => null
  | "tag:yaml.org,2002:bool" => bool
  | "tag:yaml.org,2002:int" => int
  | "tag:yaml.org,2002:float" => float
  | "tag:yaml.org,2002:binary" => binary
  | "tag:yaml.org,2002:timestamp" => timestamp
  | "tag:yaml.org,2002:str" => text
  | "tag:yaml.org,2002:seq" => sequence
  | "tag:yaml.org,2002:map" => mapping
  | "tag:yaml.org,2002:set" => set
  | "tag:yaml.org,2002:omap" => orderedMap
  | "tag:yaml.org,2002:pairs" => pairs
  | "tag:yaml.org,2002:merge" => merge
  | "tag:yaml.org,2002:value" => value
  | _ => unknown

/-! ## Forms of plain scalars -/

/-- Words for truth values. -/
def truthWords : List String :=
  ["yes", "Yes", "YES", "no", "No", "NO", "true", "True", "TRUE", "false", "False", "FALSE",
    "on", "On", "ON", "off", "Off", "OFF"]

def isNullForm (s : String) : Bool := ["~", "null", "Null", "NULL", ""].contains s

/-- What follows a sign, if there is one. -/
def withoutSign : List Char → List Char
  | '-' :: rest => rest
  | '+' :: rest => rest
  | rest => rest

/-- A digit or an underscore. -/
def isGrouped (p : Char → Bool) (c : Char) : Bool := c == '_' || p c

/-- Digits and underscores, led by a digit. -/
def isDigits (p : Char → Bool) : List Char → Bool
  | c :: rest => p c && rest.all (isGrouped Char.isDigit)
  | [] => false

/-- The parts of a number in sixties behind the first: less than sixty each. -/
def areSixties (parts : List (List Char)) : Bool :=
  !parts.isEmpty && parts.all fun part =>
    match part with
    | [a] => a.isDigit
    | [a, b] => '0' ≤ a && a ≤ '5' && b.isDigit
    | _ => false

def isIntForm (s : String) : Bool :=
  let isFirst (c : Char) : Bool := '1' ≤ c && c ≤ '9'
  match withoutSign s.toList with
  | ['0'] => true
  | '0' :: 'b' :: rest => !rest.isEmpty && rest.all (isGrouped fun c => c == '0' || c == '1')
  | '0' :: 'x' :: rest => !rest.isEmpty && rest.all (isGrouped isHexDigit)
  | '0' :: rest => !rest.isEmpty && rest.all (isGrouped fun c => '0' ≤ c && c ≤ '7')
  | cs =>
    isDigits isFirst cs ||
      match Text.cut ':' cs with
      | first :: rest => isDigits isFirst first && areSixties rest
      | [] => false

/-- An exponent with its sign, or nothing. -/
def isExponent : List Char → Bool
  | [] => true
  | e :: sign :: rest =>
    (e == 'e' || e == 'E') && (sign == '-' || sign == '+') && !rest.isEmpty && rest.all Char.isDigit
  | _ => false

/-- A fraction behind its point, with an exponent. -/
def isFraction (cs : List Char) : Bool :=
  isExponent (cs.dropWhile (isGrouped Char.isDigit))

def isFloatForm (s : String) : Bool :=
  let cs := s.toList
  let unsigned := withoutSign cs
  let whole := unsigned.takeWhile (· != '.')
  let part := unsigned.drop whole.length
  let special := String.ofList unsigned
  [".inf", ".Inf", ".INF"].contains special || [".nan", ".NaN", ".NAN"].contains s ||
    (match cs with
      | '.' :: c :: rest => c.isDigit && isFraction rest
      | _ => false) ||
    (match part with
      | '.' :: rest =>
        (isDigits Char.isDigit whole && isFraction rest) ||
          (match Text.cut ':' whole with
            | first :: others =>
              isDigits Char.isDigit first && areSixties others &&
                rest.all (isGrouped Char.isDigit)
            | [] => false)
      | _ => false)

/-- Exactly so many digits at the front, and what follows. -/
def digits? (n : Nat) (cs : List Char) : Option (Nat × List Char) :=
  let ds := cs.take n
  if ds.length == n && ds.all Char.isDigit then some (Binary64.valueOf ds, cs.drop n) else none

/-- One or two digits at the front, and what follows. -/
def shortDigits? (cs : List Char) : Option (Nat × List Char) := (digits? 2 cs).or (digits? 1 cs)

/-- What follows a character that has to come next. -/
def expect? (c : Char) : List Char → Option (List Char)
  | d :: rest => if d = c then some rest else none
  | [] => none

/-- The numbers of a date, and a time if there is one: hour, minute, second, the digits of the
fraction, and the offset in minutes. -/
structure TimestampParts where
  year : Nat
  month : Nat
  day : Nat
  /-- Month and day have two digits each. -/
  isWide : Bool
  time? : Option (Nat × Nat × Nat × List Char × Option Int)

/-- Read the offset that ends a time. -/
def readOffset? (cs : List Char) : Option (Option Int) :=
  match cs.dropWhile fun c => c == ' ' || c == '\t' with
  | [] => if cs.isEmpty then some none else none
  | ['Z'] => some (some 0)
  | sign :: rest =>
    if sign != '+' && sign != '-' then none
    else do
      let (hours, rest) ← shortDigits? rest
      let minutes ← match rest with
        | [] => some 0
        | ':' :: more =>
          match digits? 2 more with
          | some (m, []) => some m
          | _ => none
        | _ => none
      let total : Int := (60 * hours + minutes : Nat)
      return some (if sign == '-' then -total else total)

/-- Read a time behind the mark that leads it. -/
def readTime? (cs : List Char) : Option (Nat × Nat × Nat × List Char × Option Int) := do
  let (hour, rest) ← shortDigits? cs
  let (minute, rest) ← digits? 2 (← expect? ':' rest)
  let (second, rest) ← digits? 2 (← expect? ':' rest)
  let (fraction, rest) := match rest with
    | '.' :: more => (more.takeWhile Char.isDigit, more.dropWhile Char.isDigit)
    | _ => ([], rest)
  return (hour, minute, second, fraction, ← readOffset? rest)

/-- Read a date, with a time behind it or not. -/
def readTimestamp? (text : String) : Option TimestampParts := do
  let (year, rest) ← digits? 4 text.toList
  let afterYear ← expect? '-' rest
  let (month, rest) ← shortDigits? afterYear
  let afterMonth ← expect? '-' rest
  let (day, rest) ← shortDigits? afterMonth
  let isWide := (digits? 2 afterYear).isSome && (digits? 2 afterMonth).isSome
  match rest with
  | [] => return ⟨year, month, day, isWide, none⟩
  | 'T' :: time | 't' :: time => return ⟨year, month, day, isWide, some (← readTime? time)⟩
  | c :: _ =>
    if c == ' ' || c == '\t' then
      let time := rest.dropWhile fun c => c == ' ' || c == '\t'
      return ⟨year, month, day, isWide, some (← readTime? time)⟩
    else none

/-- A date of two digits for month and day each, or any date with a time. -/
def isTimestampForm (s : String) : Bool :=
  match readTimestamp? s with
  | some parts => parts.isWide || parts.time?.isSome
  | none => false

/-- The tag of a plain scalar. -/
def Tag.ofPlain (s : String) : Tag :=
  if truthWords.contains s then bool
  else if isFloatForm s then float
  else if isIntForm s then int
  else if s == "<<" then merge
  else if isNullForm s then null
  else if isTimestampForm s then timestamp
  else if s == "=" then value
  else if ["!", "&", "*"].contains s then unknown
  else text

end SliceLint.Yaml
