import SliceLint.Document.Value
import SliceLint.Text.Base64
import SliceLint.Text.Integer
import SliceLint.Text.Quoted
import SliceLint.Yaml.Tag

/-!
# Values of scalars

The value that the text of a scalar stands for, given its tag. A plain scalar gets a tag that fits
its form, but a tag that is written out may not fit, and each tag has its own way to fail.
-/

namespace SliceLint.Yaml

/-- Why a document has no value. -/
inductive ValueFault where
  | malformed (fault : Malformed)
  | moment (fault : MomentFault)
  | notTruth (word : String)
  | notMoment
  | emptyNumber
  | notInteger (base : Nat) (text : String)
  | notNumber (text : String)
deriving DecidableEq, Repr

namespace ValueFault

/-- What is said about the fault; nothing about faults of form. -/
def message : ValueFault → String
  | malformed .form => ""
  | malformed .codePoint => "chr() arg not in range(0x110000)"
  | malformed .overflow => "Python int too large to convert to C int"
  | moment fault => fault.message
  | notTruth word => Text.quoted word
  | notMoment => "'NoneType' object has no attribute 'groupdict'"
  | emptyNumber => "string index out of range"
  | notInteger base text =>
    "invalid literal for int() with base " ++ toString base ++ ": " ++
      String.ofList ((Text.quoted text).toList.take 200)
  | notNumber text => "could not convert string to float: " ++ Text.quoted text

/-- The kind of the fault. -/
def kind : ValueFault → String
  | malformed .overflow => "OverflowError"
  | notTruth _ => "KeyError"
  | notMoment => "AttributeError"
  | emptyNumber => "IndexError"
  | _ => "ValueError"

end ValueFault

/-! ## Truth values -/

/-- Read a truth value. -/
def readTruth (text : String) : Except ValueFault Value :=
  let word := text.toLower
  if ["yes", "true", "on"].contains word then .ok (.bool true)
  else if ["no", "false", "off"].contains word then .ok (.bool false)
  else .error (.notTruth word)

/-! ## Numbers -/

/-- The text of a number without its sign: whether it is negative, and what follows the sign. -/
def unsigned : List Char → Except ValueFault (Bool × List Char)
  | [] => .error .emptyNumber
  | '-' :: rest => .ok (true, rest)
  | '+' :: rest => .ok (false, rest)
  | cs => .ok (false, cs)

/-- Read a whole number in a base. -/
def readBase (base : Nat) (cs : List Char) : Except ValueFault Int :=
  let text := String.ofList cs
  match Text.readInteger? base text with
  | some n => .ok n
  | none => .error (.notInteger base text)

/-- Read a whole number without a sign in front; it may be binary, hexadecimal, octal, or written
in sixties. -/
def readMagnitude (cs : List Char) : Except ValueFault Int :=
  match cs with
  | [] => .error .emptyNumber
  | ['0'] => .ok 0
  | '0' :: 'b' :: rest => readBase 2 rest
  | '0' :: 'x' :: rest => readBase 16 rest
  | '0' :: _ => readBase 8 cs
  | _ =>
    if cs.contains ':' then do
      let parts ← (Text.cut ':' cs).mapM (readBase 10)
      return parts.foldl (fun n part => 60 * n + part) 0
    else readBase 10 cs

/-- Read a whole number. -/
def readInt (text : String) : Except ValueFault Value := do
  let (negative, cs) ← unsigned (text.toList.filter (· != '_'))
  let n ← readMagnitude cs
  return .int (if negative then -n else n)

/-- Read a part of a floating-point number. -/
def readPart (cs : List Char) : Except ValueFault Binary64 :=
  let text := String.ofList cs
  match Binary64.read? text with
  | some x => .ok x
  | none => .error (.notNumber text)

/-- The sum of parts, the last first, each weighing sixty times the one before. -/
def sixties (weight : Nat) (total : Binary64) : List Binary64 → Binary64
  | [] => total
  | part :: rest => sixties (60 * weight) (total.add (part.scaleUp weight)) rest

/-- Read a floating-point number. -/
def readFloat (text : String) : Except ValueFault Value := do
  let (negative, cs) ← unsigned (text.toLower.toList.filter (· != '_'))
  let x ←
    if String.ofList cs == ".inf" then pure (Binary64.infinite false)
    else if String.ofList cs == ".nan" then pure Binary64.nan
    else if cs.contains ':' then do
      let parts ← (Text.cut ':' cs).mapM readPart
      pure (sixties 1 (.zero false) parts.reverse)
    else readPart cs
  return .float (if negative then x.negate else x)

/-! ## Dates -/

/-- The microseconds that the digits of a fraction stand for; digits behind the sixth do not
count. -/
def microseconds (fraction : List Char) : Nat :=
  let digits := fraction.take 6
  Binary64.valueOf digits * Nat.pow 10 (6 - digits.length)

/-- Read a date or a time. -/
def readMoment (text : String) : Except ValueFault Value :=
  match readTimestamp? text with
  | none => .error .notMoment
  | some parts =>
    match parts.time? with
    | none => ((Date.of? parts.year parts.month parts.day).map .date).mapError .moment
    | some (hour, minute, second, fraction, offset?) =>
      ((Moment.checked parts.year parts.month parts.day hour minute second (microseconds fraction)
        offset?).map .moment).mapError .moment

/-! ## All tags -/

/-- Read bytes. -/
def readBytes (text : String) : Except ValueFault Value :=
  if text.toList.all fun c => c.toNat < 128 then
    match Text.base64? text with
    | some bytes => .ok (.bytes bytes)
    | none => .error (.malformed .form)
  else .error (.malformed .form)

/-- The value that a text with a tag stands for. -/
def Tag.read (tag : Tag) (text : String) : Except ValueFault Value :=
  match tag with
  | null => .ok .null
  | bool => readTruth text
  | int => readInt text
  | float => readFloat text
  | binary => readBytes text
  | timestamp => readMoment text
  | .text => .ok (.text text)
  | _ => .error (.malformed .form)

end SliceLint.Yaml
