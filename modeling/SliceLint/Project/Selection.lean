import SliceLint.Config.Basic
import SliceLint.Disk.Basic
import SliceLint.Glob
import SliceLint.Log
import SliceLint.Source.Dialect

/-!
# The files of a run

**Discovery** (`discover`). The files under the source root that can be parsed and are not left
out. Folders whose names start with a point are passed over, and so are those that cannot be listed,
without a note.

**Given files** (`pick`). Files named one by one. Each is brought into its normal form below the
project; files outside the project and those that cannot be parsed are passed over. A path with a
null character in it has no normal form, and the file counts as one outside the project.
-/

namespace SliceLint

/-- Names with what belongs to them, sorted by name. -/
def sortedByName {α : Type} (members : List (String × α)) : List (String × α) :=
  members.mergeSort fun a b => decide (a.1 ≤ b.1)

namespace Entry

/-- A folder with this name is passed over. -/
def isHidden (name : String) : Bool := name.startsWith "."

section Walk

variable (lists : String → Bool)

mutual

/-- The files below a folder with this path, each by the names that lead to it: first those of the
folder, then those of its folders in order. -/
def walk (path : String) : Entry → List (List String)
  | file _ => []
  | folder members =>
    if lists path then
      ((sortedByName members).filter fun (_, e) => !e.isFolder).map (fun (name, _) => [name]) ++
        (sortedByName (walkMembers path members)).flatMap fun (name, paths) =>
          paths.map (name :: ·)
    else []

/-- The files below the folders among some members. -/
def walkMembers (path : String) : List (String × Entry) → List (String × List (List String))
  | [] => []
  | (name, e) :: rest =>
    if e.isFolder && !isHidden name then
      (name, walk (Path.under path name) e) :: walkMembers path rest
    else walkMembers path rest

end

end Walk

end Entry

/-- The source root is no folder. -/
structure MissingRoot where
  sourceRoot : String
  projectRoot : String
deriving DecidableEq, Repr

def MissingRoot.message (f : MissingRoot) : String :=
  "source root '" ++ f.sourceRoot ++ "' not found in " ++ f.projectRoot

/-- Why no files can be found. -/
inductive SelectionFault where
  | missingRoot (fault : MissingRoot)
  | disk (fault : Fault)
deriving DecidableEq, Repr

namespace Selection

/-- A file has an extension that can be parsed. -/
def isSource (extension : String) : Bool := Dialect.extensions.contains extension

/-- The source files among those below a folder. The folder is given by its path in the project. -/
def sources (d : Disk) (root sourceRoot : String) (e : Entry) : List String :=
  let found := e.walk d.lists (Path.below root sourceRoot)
  (found.filter fun names => isSource (Path.extension (names.getLast?.getD ""))).map fun names =>
    Path.spell "" (Path.spelledSegments sourceRoot ++ names)

/-- Choose among source files those that are not left out. -/
def included (c : Config) (found : List String) : List String :=
  Text.sorted (found.filter fun path => !isExcluded path c.exclude)

/-- The notes made while files are found. -/
def notes (c : Config) (folder : String) (found : List String) : List LogEntry :=
  let left := found.filter fun path => isExcluded path c.exclude
  left.map (fun path => ⟨.debug, LogEntry.runChannel, "Excluded " ++ path⟩) ++
    [⟨.debug, LogEntry.runChannel,
      "Discovered " ++ toString (included c found).length ++ " files under " ++ folder⟩]

/-- The files of a project. -/
def discover (d : Disk) (root : String) (c : Config) :
    Logged (Except SelectionFault (List String)) :=
  let folder := Path.below root c.sourceRoot
  match d.isFolder folder, d.entry folder with
  | .error f, _ => ⟨[], .error (.disk f)⟩
  | .ok true, .ok e =>
    let found := sources d root c.sourceRoot e
    ⟨notes c folder found, .ok (included c found)⟩
  | _, _ => ⟨[], .error (.missingRoot ⟨c.sourceRoot, root⟩)⟩

/-! ## Given files -/

/-- The path of a file within a project, if it lies there. How many slashes lead an absolute path
does not matter. -/
def within? (root path : String) : Option String :=
  let segs := Path.segments (Path.normalize root)
  let own := Path.segments (Path.normalize path)
  if !Path.hasNull path &&
      Path.isAbsolute root == Path.isAbsolute path &&
      segs.isPrefixOf own then
    some (Path.spell "" (own.drop segs.length))
  else none

/-- What becomes of a given file: its path in the project, or a note why it is passed over. -/
def place (root path : String) : Except LogEntry String :=
  let absolute := Path.below root path
  match within? root absolute with
  | none =>
    .error ⟨.warning, LogEntry.runChannel,
      "Skipping " ++ Path.spelled path ++ ": outside project root"⟩
  | some rel =>
    if isSource (Path.suffix absolute) then .ok rel
    else .error ⟨.debug, LogEntry.runChannel, "Skipping " ++ rel ++ ": unsupported extension"⟩

/-- The given files that belong to a project. -/
def pick (root : String) (paths : List String) : Logged (List String) :=
  let places := paths.map (place root)
  let notes := places.filterMap fun
    | .error note => some note
    | .ok _ => none
  ⟨notes, Text.sorted (Text.distinct (places.filterMap Except.toOption))⟩

end Selection

end SliceLint
