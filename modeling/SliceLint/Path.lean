import SliceLint.Text.Lines

/-!
# Paths

Paths are texts with slashes between their segments. Nothing here looks at a disk.

**Normal form** (`normalize`). Empty and `.` segments go, and a `..` segment takes the segment
before it along. What is left of a relative path may start with `..` segments; the empty path
becomes `.`.

**Resolved paths** (`resolve`). Of an absolute path that names a place from the top there is one
spelling, which starts with one slash and has no `.` and no `..` segment.

**Spelling** (`spelled`). The spelling that a path keeps when its segments are joined again: empty
and `.` segments go, `..` segments stay.
-/

namespace SliceLint.Path

open Text

/-- The segments between slashes, empty ones included. -/
def pieces (p : String) : List String := (cut '/' p.toList).map String.ofList

/-- The segments that are not empty. -/
def segments (p : String) : List String := (pieces p).filter (· != "")

/-- Two slashes stay two, more become one. -/
def rootOf (p : String) : String :=
  match p.toList with
  | '/' :: '/' :: '/' :: _ => "/"
  | '/' :: '/' :: _ => "//"
  | '/' :: _ => "/"
  | _ => ""

def isAbsolute (p : String) : Bool := p.startsWith "/"

/-- A null character stands in the path. -/
def hasNull (p : String) : Bool := p.toList.contains '\x00'

/-- One more segment on top of the normalised ones, which come in reverse. -/
def push (rooted : Bool) (stack : List String) (seg : String) : List String :=
  if seg == "" || seg == "." then stack
  else if seg != ".." then seg :: stack
  else
    match stack with
    | [] => if rooted then [] else [".."]
    | top :: rest => if top == ".." then ".." :: stack else rest

/-- The segments of the normal form. -/
def normalSegments (rooted : Bool) (segs : List String) : List String :=
  (segs.foldl (push rooted) []).reverse

/-- The normal form of a path. -/
def normalize (p : String) : String :=
  let root := rootOf p
  let path := root ++ join "/" (normalSegments (root != "") (pieces p))
  if path == "" then "." else path

/-- The one spelling of what an absolute path names: a slash, and the segments from the top. -/
def resolve (p : String) : String := "/" ++ join "/" (normalSegments true (pieces p))

/-- Everything before the last slash, without the slashes it ends with. -/
def directory (p : String) : String :=
  let head := (p.toList.reverse.dropWhile (· != '/'))
  let bare := head.dropWhile (· == '/')
  String.ofList (if bare.isEmpty then head else bare).reverse

/-- Everything after the last slash. -/
def baseName (p : String) : String :=
  String.ofList (p.toList.reverse.takeWhile (· != '/')).reverse

/-- A path below another; an absolute path stands for itself. -/
def under (base p : String) : String :=
  if isAbsolute p then p
  else if base == "" || base.endsWith "/" then base ++ p
  else base ++ "/" ++ p

/-- Cut a file name before its last point; points that lead the name do not count. -/
def splitName (name : List Char) : List Char × List Char :=
  let points := name.takeWhile (· == '.')
  let rest := name.dropWhile (· == '.')
  let back := rest.reverse
  let ext := back.takeWhile (· != '.')
  match back.drop ext.length with
  | [] => (name, [])
  | _ :: stem => (points ++ stem.reverse, '.' :: ext.reverse)

/-- The extension of the last segment, point included; empty when there is none. -/
def extension (p : String) : String :=
  String.ofList (splitName (baseName p).toList).2

/-- The last segment without its extension. -/
def stemOfBase (p : String) : String :=
  String.ofList (splitName (baseName p).toList).1

/-! ## Spelled paths -/

/-- The segments of a spelling. -/
def spelledSegments (p : String) : List String := (segments p).filter (· != ".")

/-- The spelling of a path, given its root and segments. -/
def spell (root : String) (segs : List String) : String :=
  if root == "" && segs.isEmpty then "." else root ++ join "/" segs

/-- The path as it is spelled once empty and `.` segments are gone. -/
def spelled (p : String) : String := spell (rootOf p) (spelledSegments p)

/-- The last segment of a spelling; empty when there is none. -/
def name (p : String) : String := ((spelledSegments p).getLast?).getD ""

/-- Where the suffix of a name starts: its last point, unless that leads or ends the name. -/
def splitSuffix (name : String) : String × String :=
  let cs := name.toList
  let ext := cs.reverse.takeWhile (· != '.')
  let stem := cs.reverse.drop (ext.length + 1)
  if ext.isEmpty || stem.isEmpty || ext.length == cs.length then (name, "")
  else (String.ofList stem.reverse, String.ofList ('.' :: ext.reverse))

/-- The suffix of the last segment, point included. -/
def suffix (p : String) : String := (splitSuffix (name p)).2

/-- The last segment without its suffix. -/
def stem (p : String) : String := (splitSuffix (name p)).1

/-- The path with another last segment. -/
def withName (p name : String) : String :=
  spell (rootOf p) ((spelledSegments p).dropLast ++ [name])

/-- The path without its last segment. -/
def parent (p : String) : String := spell (rootOf p) (spelledSegments p).dropLast

/-- A path below another, as spelled. -/
def below (base p : String) : String :=
  if isAbsolute p then spelled p
  else spell (rootOf base) (spelledSegments base ++ spelledSegments p)

end SliceLint.Path
