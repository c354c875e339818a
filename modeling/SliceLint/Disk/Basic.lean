import SliceLint.Path
import SliceLint.Rule.Context
import SliceLint.Text.Utf8

/-!
# Disks

A disk is a tree of folders and files, seen from one of its folders. Paths that are not absolute
start there.

**Finding** (`Disk.entry`). A path is followed segment by segment; `..` leads back to the folder
above. Every segment but the last has to lead to a folder. A name has at most 255 bytes, and a
path at most 4095. A path with a null character in it leads nowhere.
-/

namespace SliceLint

/-- A file or a folder. -/
inductive Entry where
  | file (bytes : List UInt8)
  | folder (members : List (String × Entry))
deriving Repr

namespace Entry

def isFolder : Entry → Bool
  | file _ => false
  | folder _ => true

end Entry

/-- Why a path cannot be used. -/
inductive DiskFault where
  | notFound
  | taken
  | notFolder
  | isFolder
  | nameTooLong
  | nullCharacter
deriving DecidableEq, Repr

namespace DiskFault

/-- The name of the kind of fault. -/
def kind : DiskFault → String
  | notFound => "FileNotFoundError"
  | taken => "FileExistsError"
  | notFolder => "NotADirectoryError"
  | isFolder => "IsADirectoryError"
  | nameTooLong => "OSError"
  | nullCharacter => "ValueError"

/-- The number and the wording of a fault, where it has a number. -/
def wording : DiskFault → String
  | notFound => "[Errno 2] No such file or directory: "
  | taken => "[Errno 17] File exists: "
  | notFolder => "[Errno 20] Not a directory: "
  | isFolder => "[Errno 21] Is a directory: "
  | nameTooLong => "[Errno 36] File name too long: "
  | nullCharacter => "embedded null byte"

/-- The fault of using a path. A fault with a number names the path. -/
def onPath (f : DiskFault) (path : String) : Fault :=
  match f with
  | nullCharacter => ⟨f.kind, f.wording⟩
  | _ => ⟨f.kind, f.wording ++ Text.quoted path⟩

end DiskFault

/-- Folders and files, seen from one of the folders. -/
structure Disk where
  root : Entry
  here : String

namespace Disk

/-- The greatest number of bytes of a name. -/
def nameLimit : Nat := 255

/-- The least number of bytes that a path cannot have. -/
def pathLimit : Nat := 4096

/-- The member of a folder. -/
def member (name : String) : Entry → Except DiskFault Entry
  | .file _ => .error .notFolder
  | .folder members =>
    if name.utf8ByteSize > nameLimit then .error .nameTooLong
    else
      match members.lookup name with
      | some e => .ok e
      | none => .error .notFound

/-- Follow segments from an entry, given the folders above it. -/
def descend (above : List Entry) (e : Entry) : List String → Except DiskFault Entry
  | [] => .ok e
  | seg :: rest =>
    if seg == "" || seg == "." then
      if e.isFolder then descend above e rest else .error .notFolder
    else if seg == ".." then
      if e.isFolder then
        match above with
        | [] => descend [] e rest
        | top :: others => descend others top rest
      else .error .notFolder
    else
      match member seg e with
      | .ok next => descend (e :: above) next rest
      | .error f => .error f

/-- A path from the root. -/
def absolute (d : Disk) (path : String) : String := Path.under d.here path

/-- The entry that a path leads to. -/
def entry (d : Disk) (path : String) : Except DiskFault Entry :=
  if path == "" || Path.hasNull path then .error .notFound
  else if path.utf8ByteSize ≥ pathLimit then .error .nameTooLong
  else descend [] d.root (Path.pieces (d.absolute path))

/-- A path leads to an entry of some kind. A path that leads nowhere does not. -/
def holds (d : Disk) (path : String) (p : Entry → Bool) : Except Fault Bool :=
  match d.entry path with
  | .ok e => .ok (p e)
  | .error .notFound => .ok false
  | .error .notFolder => .ok false
  | .error f => .error (f.onPath path)

/-- A path leads to a file. -/
def isFile (d : Disk) (path : String) : Except Fault Bool := d.holds path fun e => !e.isFolder

/-- A path leads to a folder. -/
def isFolder (d : Disk) (path : String) : Except Fault Bool := d.holds path Entry.isFolder

/-- The members of a folder can be listed where its path leads to it. -/
def lists (d : Disk) (path : String) : Bool :=
  match d.entry path with
  | .ok e => e.isFolder
  | .error _ => false

/-- The bytes of a file. -/
def readBytes (d : Disk) (path : String) : Except DiskFault (List UInt8) :=
  match d.entry path with
  | .ok (.file bytes) => .ok bytes
  | .ok (.folder _) => .error .isFolder
  | .error f => .error f

/-- The text of a file, with every line break written as a newline. -/
def readText (d : Disk) (path : String) : Except Fault String :=
  match d.readBytes path with
  | .error f => .error (f.onPath path)
  | .ok bytes =>
    match Text.decode bytes with
    | .ok text => .ok (Text.withNewlines text)
    | .error f => .error ⟨"UnicodeDecodeError", f.message⟩

/-- The view of the disk that rules have. -/
def view (d : Disk) : FileView := ⟨d.isFile, d.readText⟩

end Disk

end SliceLint
