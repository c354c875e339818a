import SliceLint.Document.Moment
import SliceLint.Number.Binary64

/-!
# Document values

The values that a configuration document may hold.

**Equal keys** (`same`). Numbers are equal when they stand for the same number, whatever their
form, and the truth values count as one and zero. All else is equal only within its kind.

**Mappings** keep the order in which their keys first appeared. A later equal key replaces the
value and leaves the key.
-/

namespace SliceLint

/-- A value of a document. -/
inductive Value where
  | null
  | bool (b : Bool)
  | int (n : Int)
  | float (x : Binary64)
  | text (s : String)
  | bytes (bs : List UInt8)
  | date (d : Date)
  | moment (t : Moment)
  | list (items : List Value)
  | tuple (items : List Value)
  | set (items : List Value)
  | mapping (entries : List (Value × Value))
deriving Repr, Inhabited

namespace Value

/-- The whole number that a value equals, if there is one. -/
def number? : Value → Option Int
  | bool b => some (if b then 1 else 0)
  | int n => some n
  | float x => x.toInt?
  | _ => none

/-- Two values are equal as keys. -/
def same : Value → Value → Bool
  | null, null => true
  | text s, text t => s == t
  | bytes a, bytes b => a == b
  | date a, date b => a == b
  | moment a, moment b => a.same b
  | float x, float y => x.same y
  | x, y =>
    match x.number?, y.number? with
    | some m, some n => m == n
    | _, _ => false

/-- Put a value under a key. -/
def put (entries : List (Value × Value)) (key value : Value) : List (Value × Value) :=
  match entries with
  | [] => [(key, value)]
  | (k, v) :: rest => if k.same key then (k, value) :: rest else (k, v) :: put rest key value

/-- The mapping of keys and values in written order. -/
def ofPairs (pairs : List (Value × Value)) : Value :=
  mapping (pairs.foldl (fun entries (k, v) => put entries k v) [])

/-- The value under a key that is a text. -/
def find? (entries : List (Value × Value)) (key : String) : Option Value :=
  (entries.find? fun (k, _) => k.same (text key)).map (·.2)

/-- The kind of a value, as messages name it. -/
def kindName : Value → String
  | null => "NoneType"
  | bool _ => "bool"
  | int _ => "int"
  | float _ => "float"
  | text _ => "str"
  | bytes _ => "bytes"
  | date _ => "datetime.date"
  | moment _ => "datetime.datetime"
  | list _ => "list"
  | tuple _ => "tuple"
  | set _ => "set"
  | mapping _ => "dict"

end Value

end SliceLint
