import SliceLint.Text.Lines
import SliceLint.Text.Word

/-!
# Literal style values

Which string values of which style properties are literal design values. A value belongs to a
family by its form, a property by the words in its name.

**Forms.** A colour occurs anywhere in a value; a length, a percentage and a whole number are the
whole value, up to one newline at its end.
-/

namespace SliceLint.StyleValue

open Text

/-- The value without the one newline it may end with. -/
def withoutNewline (cs : List Char) : List Char :=
  if cs.getLast? = some '\n' then cs.dropLast else cs

/-- A number without a sign, up to the first character that is not of it. -/
def afterNumber? (cs : List Char) : Option (List Char) :=
  let rest := cs.dropWhile isDecimal
  if (cs.takeWhile isDecimal).isEmpty then none
  else
    match rest with
    | '.' :: part =>
      if (part.takeWhile isDecimal).isEmpty then some rest else some (part.dropWhile isDecimal)
    | _ => some rest

/-- A number with a unit of length. -/
def isLength (cs : List Char) : Bool :=
  match afterNumber? cs with
  | some rest => rest == ['p', 'x'] || rest == ['r', 'e', 'm'] || rest == ['e', 'm']
  | none => false

/-- A percentage that starts with a digit other than zero. -/
def isPercentage : List Char → Bool
  | c :: rest => ('1' ≤ c && c ≤ '9') && rest.dropWhile isDecimal == ['%']
  | [] => false

/-- Digits alone. -/
def isWholeNumber (cs : List Char) : Bool := !cs.isEmpty && cs.all isDecimal

def isHex (c : Char) : Bool := c.isDigit || ('a' ≤ c && c ≤ 'f') || ('A' ≤ c && c ≤ 'F')

/-- A closing parenthesis comes before the end of the line. -/
def closesOnLine (cs : List Char) : Bool := (cs.takeWhile (· != '\n')).contains ')'

/-- A colour starts here: hexadecimal digits after a hash, or a call of a colour function. -/
def startsColor (cs : List Char) : Bool :=
  let call (f : String) : Bool := f.toList.isPrefixOf cs && closesOnLine (cs.drop f.length)
  match cs with
  | '#' :: rest => ((rest.take 3).takeWhile isHex).length == 3
  | _ => call "rgb(" || call "rgba(" || call "hsl(" || call "hsla("

/-- A colour occurs. -/
def hasColor : List Char → Bool
  | [] => false
  | c :: cs => startsColor (c :: cs) || hasColor cs

/-- A kind of design value. -/
inductive Family where
  | color
  | spacing
  | typography
  | borderRadius
  | zIndex
deriving DecidableEq, Repr

namespace Family

/-- The families in the order they are reported in. -/
def all : List Family := [color, spacing, typography, borderRadius, zIndex]

/-- The message that reports a value of the family. -/
def messageId : Family → String
  | color => "literalColor"
  | spacing => "literalSpacing"
  | typography => "literalTypography"
  | borderRadius => "literalBorderRadius"
  | zIndex => "literalZIndex"

/-- The words of which a property of the family has one in its name. -/
def keywords : Family → List String
  | color => ["color", "Color"]
  | spacing => ["margin", "padding", "gap", "Margin", "Padding"]
  | typography => ["fontSize", "font-size"]
  | borderRadius => ["borderRadius", "border-radius"]
  | zIndex => ["zIndex", "z-index"]

/-- The design token that takes the place of a literal value. -/
def token : Family → String
  | color => "theme.colors.*"
  | spacing => "theme.spacing[*]"
  | typography => "theme.typography.fontSize.*"
  | borderRadius => "theme.borderRadius.*"
  | zIndex => "theme.zIndex[*]"

/-- The value has the form of the family. -/
def acceptsValue (f : Family) (value : List Char) : Bool :=
  match f with
  | color => hasColor value
  | spacing => isLength (withoutNewline value) || isPercentage (withoutNewline value)
  | typography | borderRadius => isLength (withoutNewline value)
  | zIndex => isWholeNumber (withoutNewline value)

/-- The property and the value both belong to the family. -/
def covers (f : Family) (property value : String) : Bool :=
  f.keywords.any (contains property) && f.acceptsValue value.toList

end Family

/-- Values that are no design decisions. -/
def isExempt (value : String) : Bool :=
  ["transparent", "0", "auto", "100%", "100vh", "100vw"].contains value ||
    value.startsWith "var(--" || value.startsWith "calc("

end SliceLint.StyleValue
