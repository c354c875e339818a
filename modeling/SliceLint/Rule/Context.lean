import SliceLint.Hierarchy
import SliceLint.ImportPath
import SliceLint.Text.Lines
import SliceLint.Text.Order

/-!
# What rules see

A rule sees one file at a time: where the file lies, its text and its coordinate. Of the whole run
it sees the settings that all files share, a read-only view of the disk, and which file owns each
slice.

**Owners.** The owner of a slice is its first file, in the order of paths, among the files of the
run.
-/

namespace SliceLint

/-- Why a rule gave up: the kind of failure, and what is said about it. -/
structure Fault where
  kind : String
  text : String
deriving DecidableEq, Repr, Inhabited

/-- A read-only view of a disk. -/
structure FileView where
  isFile : String → Except Fault Bool
  readText : String → Except Fault String

/-- What all files of a run share. -/
structure RunContext where
  projectRoot : String
  sourceRoot : String
  aliases : Aliases
  hierarchy : Hierarchy
  files : List String
  view : FileView
  owners : List (Coordinate × String)

/-- Enter a file as the owner of its slice, unless the slice has one. -/
def enterOwner (sourceRoot : String) (owners : List (Coordinate × String)) (file : String) :
    List (Coordinate × String) :=
  match Coordinate.ofPath? file sourceRoot with
  | none => owners
  | some c =>
    if c.slice.isNone || (owners.lookup c).isSome then owners else owners ++ [(c, file)]

/-- Slices with their first file, among files in order. -/
def ownersOf (sourceRoot : String) (files : List String) : List (Coordinate × String) :=
  files.foldl (enterOwner sourceRoot) []

namespace RunContext

/-- The context of a run over the given files. -/
def build (projectRoot sourceRoot : String) (aliases : Aliases) (hierarchy : Hierarchy)
    (files : List String) (view : FileView) : RunContext :=
  let ordered := Text.sorted files
  ⟨projectRoot, sourceRoot, aliases, hierarchy, ordered, view, ownersOf sourceRoot ordered⟩

/-- The file is the first of its slice. -/
def ownsSlice (run : RunContext) (file : String) (c : Coordinate) : Bool :=
  (run.owners.lookup c).getD file == file

end RunContext

/-- What a rule sees of one file. -/
structure FileContext where
  path : String
  relPath : String
  text : String
  coordinate : Option Coordinate
  run : RunContext

/-- The lines of the file. -/
def FileContext.lines (ctx : FileContext) : List String := Text.lines ctx.text

end SliceLint
