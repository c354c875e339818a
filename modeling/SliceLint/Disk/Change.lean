import SliceLint.Disk.Basic

/-!
# Changes of a disk

Files are written and removed, and folders are made. A change says what becomes of the disk, and,
if it failed, why. Nothing can be made at a path with a null character in it.
-/

namespace SliceLint

/-- Put an entry under a name, in the place of the one that is there. -/
def Entry.setMember (members : List (String × Entry)) (name : String) (e : Entry) :
    List (String × Entry) :=
  match members with
  | [] => [(name, e)]
  | (n, old) :: rest => if n == name then (n, e) :: rest else (n, old) :: setMember rest name e

/-- Put an entry at a place, given by the names that lead to it. -/
def Entry.put (new : Entry) : List String → Entry → Entry
  | [], _ => new
  | _ :: _, .file bytes => .file bytes
  | name :: names, .folder members =>
    .folder (setMember members name (put new names ((members.lookup name).getD (.folder []))))

/-- Remove the entry at a place. -/
def Entry.remove : List String → Entry → Entry
  | _, .file bytes => .file bytes
  | [], e => e
  | [name], .folder members => .folder (members.filter (·.1 != name))
  | name :: names, .folder members =>
    .folder (members.map fun (n, e) => if n == name then (n, remove names e) else (n, e))

namespace Entry

mutual

/-- The files of a tree that are not so in another, each by the names that lead to it. -/
def filesUnlike (old : Option Entry) : Entry → List (List String × List UInt8)
  | file bytes =>
    match old with
    | some (file same) => if same == bytes then [] else [([], bytes)]
    | _ => [([], bytes)]
  | folder members =>
    match old with
    | some (folder others) => membersUnlike others members
    | _ => membersUnlike [] members

/-- The files below members of a folder that are not so in another. -/
def membersUnlike (old : List (String × Entry)) :
    List (String × Entry) → List (List String × List UInt8)
  | [] => []
  | (name, e) :: rest =>
    (filesUnlike (old.lookup name) e).map (fun (names, bytes) => (name :: names, bytes)) ++
      membersUnlike old rest

end

end Entry

namespace Disk

/-- The files of a disk that are not so on another, by their paths. -/
def filesUnlike (old new : Disk) : List (String × List UInt8) :=
  (Entry.filesUnlike (some old.root) new.root).map fun (names, bytes) =>
    (Path.spell "/" names, bytes)

/-- The names that lead to the place of a path. -/
def place (d : Disk) (path : String) : List String :=
  Path.normalSegments true (Path.pieces (d.absolute path))

/-- The disk with an entry at the place of a path. -/
def put (d : Disk) (path : String) (e : Entry) : Disk :=
  { d with root := Entry.put e (d.place path) d.root }

/-- Put a new entry at a path that leads nowhere yet. Its folder has to be there. -/
def create (d : Disk) (path : String) (e : Entry) : Except DiskFault Disk :=
  match d.entry (Path.parent path) with
  | .ok (.folder _) => .ok (d.put path e)
  | .ok (.file _) => .error .notFolder
  | .error f => .error f

/-- Write a file. -/
def write (d : Disk) (path : String) (bytes : List UInt8) : Except DiskFault Disk :=
  if Path.hasNull path then .error .nullCharacter
  else
    match d.entry path with
    | .ok (.file _) => .ok (d.put path (.file bytes))
    | .ok (.folder _) => .error .isFolder
    | .error .notFound => d.create path (.file bytes)
    | .error f => .error f

/-- Make a folder. -/
def makeFolder (d : Disk) (path : String) : Except DiskFault Disk :=
  if Path.hasNull path then .error .nullCharacter
  else
    match d.entry path with
    | .ok _ => .error .taken
    | .error .notFound => d.create path (.folder [])
    | .error f => .error f

/-- What a change leads to: a fault if it failed, and the disk as it is left. -/
abbrev Change := Except Fault Unit × Disk

/-- Make a folder unless it is there. -/
def ensureFolder (d : Disk) (path : String) : Change :=
  match d.makeFolder path with
  | .ok changed => (.ok (), changed)
  | .error f =>
    match d.entry path with
    | .ok (.folder _) => (.ok (), d)
    | _ => (.error (f.onPath path), d)

/-- Make a folder and those above it, unless they are there. The path is given by its root and its
segments in reverse. -/
def ensureFoldersFrom (root : String) : List String → Disk → Change
  | [], d => d.ensureFolder (Path.spell root [])
  | seg :: above, d =>
    let path := Path.spell root (seg :: above).reverse
    match d.makeFolder path with
    | .error .notFound =>
      match ensureFoldersFrom root above d with
      | (.ok (), changed) => changed.ensureFolder path
      | failed => failed
    | _ => d.ensureFolder path

/-- Make a folder and those above it, unless they are there. -/
def ensureFolders (d : Disk) (path : String) : Change :=
  ensureFoldersFrom (Path.rootOf path) (Path.spelledSegments path).reverse d

/-- Write a file; the folders that lead to it are made if need be. -/
def writeBelow (d : Disk) (path : String) (bytes : List UInt8) : Change :=
  match d.ensureFolders (Path.parent path) with
  | (.ok (), changed) =>
    match changed.write path bytes with
    | .ok written => (.ok (), written)
    | .error f => (.error (f.onPath path), changed)
  | failed => failed

/-- Remove a file, or a folder with all it holds. -/
def remove (d : Disk) (path : String) : Except Fault Disk :=
  match d.entry path with
  | .ok _ => .ok { d with root := Entry.remove (d.place path) d.root }
  | .error f => .error (f.onPath path)

end Disk

end SliceLint
