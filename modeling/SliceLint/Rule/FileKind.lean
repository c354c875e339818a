import SliceLint.Path

/-!
# Kinds of files

What the path of a file says about it: tests, components, files of a user interface or of an
interface to a server.
-/

namespace SliceLint.FileKind

open Text

/-- Drop the given end of a text, if the text has it. -/
def withoutEnd? (ending : String) (back : List Char) : Option (List Char) :=
  let e := ending.toList.reverse
  if e.isPrefixOf back then some (back.drop e.length) else none

/-- The path without the newline it may end with. -/
def chompedBack (path : String) : List Char :=
  match path.toList.reverse with
  | '\n' :: back => back
  | back => back

/-- The path ends like `.spec.ts` or `.test.jsx`; the extension may lead with `c` or `m`. -/
def isTest (path : String) : Bool :=
  let back := chompedBack path
  let endings := ["ts", "js", "tsx", "jsx"].flatMap fun e => ["." ++ e, ".c" ++ e, ".m" ++ e]
  endings.any fun e =>
    ((withoutEnd? e back).any fun rest =>
      (withoutEnd? ".spec" rest).isSome || (withoutEnd? ".test" rest).isSome)

/-- A file that holds a component. -/
def isComponent (path : String) : Bool :=
  Path.extension path == ".tsx" || Path.extension path == ".jsx"

/-- A file in a directory of the user interface. -/
def inUi (path : String) : Bool := contains ("/" ++ path) "/ui/"

/-- A path with a segment that starts with `api`. -/
def mentionsApi (path : String) : Bool := contains ("/" ++ path) "/api"

/-- The module through which a feature talks to a server: `api.ts` or `api.js` directly in a
directory below one named `features`. -/
def isApiModule (path : String) : Bool :=
  match (Path.pieces path).reverse with
  | file :: slice :: "features" :: _ =>
    slice != "" && ["api.ts", "api.js", "api.ts\n", "api.js\n"].contains file
  | _ => false

end SliceLint.FileKind
