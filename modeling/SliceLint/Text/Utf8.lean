import SliceLint.Text.Quoted

/-!
# Bytes as text

Bytes are read as UTF-8. A fault names the bytes that could not be read and why.

**Stretches** (`decodeStretches`). A text may come in stretches of 8192 bytes. A character cut
off by the end of a stretch is carried over, and places count from the start of what is at hand.
-/

namespace SliceLint.Text

/-- Why bytes are no text. -/
inductive Utf8Reason where
  | start
  | continuation
  | unfinished
deriving DecidableEq, Repr

namespace Utf8Reason

def message : Utf8Reason → String
  | start => "invalid start byte"
  | continuation => "invalid continuation byte"
  | unfinished => "unexpected end of data"

end Utf8Reason

/-- Bytes that could not be read: the place of the first, the first itself, their number, and the
reason. -/
structure Utf8Fault where
  place : Nat
  first : UInt8
  size : Nat
  reason : Utf8Reason
deriving DecidableEq, Repr

def Utf8Fault.message (f : Utf8Fault) : String :=
  let which :=
    if f.size == 1 then
      "byte 0x" ++ String.ofList (hexDigits 2 f.first.toNat) ++ " in position " ++ toString f.place
    else "bytes in position " ++ toString f.place ++ "-" ++ toString (f.place + f.size - 1)
  "'utf-8' codec can't decode " ++ which ++ ": " ++ f.reason.message

/-- A byte may stand behind the first byte of a character. -/
def isContinuation (b : UInt8) : Bool := 0x80 ≤ b && b < 0xc0

/-- The number of bytes behind a first byte. -/
def followers? (b : UInt8) : Option Nat :=
  if b < 0x80 then some 0
  else if b < 0xc2 then none
  else if b < 0xe0 then some 1
  else if b < 0xf0 then some 2
  else if b < 0xf5 then some 3
  else none

/-- The second byte can follow the first: no longer form of a shorter character, no half of a pair,
nothing beyond the last character. -/
def canFollow (first second : UInt8) : Bool :=
  isContinuation second &&
    !(first == 0xe0 && second < 0xa0) && !(first == 0xed && second ≥ 0xa0) &&
    !(first == 0xf0 && second < 0x90) && !(first == 0xf4 && second ≥ 0x90)

/-- The number of bytes, up to the one given, that belong to a character that starts with the
first. -/
def goodFollowers (first : UInt8) (n : Nat) (bytes : List UInt8) : Nat :=
  match n, bytes with
  | n + 1, second :: rest =>
    if canFollow first second then 1 + ((rest.take n).takeWhile isContinuation).length else 0
  | _, _ => 0

/-- The character of a first byte and those behind it. -/
def characterOf (first : UInt8) (behind : List UInt8) : Char :=
  let lead := first.toNat % Nat.pow 2 (6 - behind.length)
  let lead := if behind.isEmpty then first.toNat else lead
  Char.ofNat (behind.foldl (fun n b => 64 * n + b.toNat % 64) lead)

/-- What the front of some bytes holds. -/
inductive Utf8Front where
  | character (c : Char) (size : Nat)
  | fault (size : Nat) (reason : Utf8Reason)

/-- Look at the front of bytes. -/
def utf8Front (first : UInt8) (rest : List UInt8) : Utf8Front :=
  match followers? first with
  | none => .fault 1 .start
  | some n =>
    let good := goodFollowers first n rest
    if good = n then .character (characterOf first (rest.take n)) (n + 1)
    else if rest.length = good then .fault (good + 1) .unfinished
    else .fault (good + 1) .continuation

/-- Read characters, given the place of the first byte; the result ends with the bytes of an
unfinished character. -/
def utf8From (place : Nat) : List UInt8 → Except Utf8Fault (List Char × List UInt8)
  | [] => .ok ([], [])
  | first :: rest =>
    match utf8Front first rest with
    | .character c size =>
      (utf8From (place + size) (rest.drop (size - 1))).map fun (cs, left) => (c :: cs, left)
    | .fault _ .unfinished => .ok ([], first :: rest)
    | .fault size reason => .error ⟨place, first, size, reason⟩
termination_by bytes => bytes.length
decreasing_by
  simp only [List.length_drop, List.length_cons]
  omega

/-- The text is over; no character may be unfinished. -/
def utf8Finish (place : Nat) : List UInt8 → Except Utf8Fault Unit
  | [] => .ok ()
  | first :: rest => .error ⟨place, first, rest.length + 1, .unfinished⟩

/-- The text of bytes. -/
def decode (bytes : List UInt8) : Except Utf8Fault String := do
  let (cs, left) ← utf8From 0 bytes
  utf8Finish (bytes.length - left.length) left
  return String.ofList cs

/-- The number of bytes of a stretch. -/
def stretchSize : Nat := 8192

/-- Read text stretch by stretch, given the bytes carried over; the first argument bounds the
number of stretches. -/
def stretchesFrom : Nat → List UInt8 → List UInt8 → Except Utf8Fault (List Char)
  | 0, carried, _ => do
    utf8Finish 0 carried
    return []
  | n + 1, carried, bytes => do
    let (cs, left) ← utf8From 0 (carried ++ bytes.take stretchSize)
    let more ← stretchesFrom n left (bytes.drop stretchSize)
    return cs ++ more

/-- The text of bytes that come in stretches. -/
def decodeStretches (bytes : List UInt8) : Except Utf8Fault String :=
  (stretchesFrom (bytes.length / stretchSize + 1) [] bytes).map String.ofList

/-- The text with every line break written as a newline. -/
def withNewlines (s : String) : String := String.ofList (unify s.toList)
where
  unify : List Char → List Char
    | '\r' :: '\n' :: rest => '\n' :: unify rest
    | '\r' :: rest => '\n' :: unify rest
    | c :: rest => c :: unify rest
    | [] => []

end SliceLint.Text
