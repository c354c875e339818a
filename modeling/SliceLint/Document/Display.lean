import SliceLint.Document.Value
import SliceLint.Number.DecimalText
import SliceLint.Text.Quoted

/-!
# How values are shown

A value is shown in one of two forms. The exact form (`exact`) tells texts from other values by
their quotes and names the parts of dates and times. The plain form (`plain`) of a text is the text
itself, and dates and times are written with hyphens and colons; inside lists and mappings all is
exact.
-/

namespace SliceLint.Value

/-- Numbers with commas between them. -/
def listed (ns : List Nat) : String := ", ".intercalate (ns.map toString)

/-- A date by its parts. -/
def exactDate (d : Date) : String := "datetime.date(" ++ listed [d.year, d.month, d.day] ++ ")"

/-- The offset of a time by its parts. -/
def exactOffset (minutes : Int) : String :=
  if minutes == 0 then "datetime.timezone.utc"
  else "datetime.timezone(" ++ shownSpan minutes ++ ")"

/-- A time by its parts; seconds and microseconds only when there are any. -/
def exactMoment (t : Moment) : String :=
  let parts := [t.date.year, t.date.month, t.date.day, t.hour, t.minute]
  let small :=
    if t.microsecond != 0 then [t.second, t.microsecond]
    else if t.second != 0 then [t.second]
    else []
  let zone := match t.offset? with
    | some m => ", tzinfo=" ++ exactOffset m
    | none => ""
  "datetime.datetime(" ++ listed (parts ++ small) ++ zone ++ ")"

mutual

/-- The exact form of a value. -/
def exact : Value → String
  | null => "None"
  | bool b => if b then "True" else "False"
  | int n => toString n
  | float x => x.shortest
  | text s => Text.quoted s
  | bytes bs => Text.quotedBytes bs
  | date d => exactDate d
  | moment t => exactMoment t
  | list items => "[" ++ ", ".intercalate (exactAll items) ++ "]"
  | tuple items =>
    "(" ++ ", ".intercalate (exactAll items) ++ (if items.length == 1 then ",)" else ")")
  | set items =>
    if items.isEmpty then "set()" else "\x7b" ++ ", ".intercalate (exactAll items) ++ "\x7d"
  | mapping entries => "\x7b" ++ ", ".intercalate (exactEntries entries) ++ "\x7d"

/-- The exact forms of several values. -/
def exactAll : List Value → List String
  | [] => []
  | v :: vs => exact v :: exactAll vs

/-- The exact forms of the entries of a mapping. -/
def exactEntries : List (Value × Value) → List String
  | [] => []
  | (k, v) :: rest => (exact k ++ ": " ++ exact v) :: exactEntries rest

end

/-- The plain form of a value. -/
def plain : Value → String
  | text s => s
  | date d => d.shown
  | moment t => t.shown " "
  | v => exact v

end SliceLint.Value
