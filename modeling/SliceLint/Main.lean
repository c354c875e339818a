import SliceLint.Command.Run
import Std.Time.DateTime.Timestamp

/-!
# The program

The program takes a picture of the disk: the current folder and the places that the arguments
name. It runs the command line on that picture, says what there is to say, and writes the files
that have changed.
-/

namespace SliceLint.Main

/-- The file or the folder at a path, with all it holds. -/
partial def readEntry (path : String) : IO Entry := do
  let place := (← IO.currentDir) / path
  if ← place.isDir then
    let members ← (← place.readDir).toList.mapM fun e => do
      return (e.fileName, ← readEntry e.path.toString)
    return .folder members
  else
    let bytes ← try IO.FS.readBinFile place catch _ => pure .empty
    return .file bytes.data.toList

/-- Add what lies at a path to the picture, if anything does. -/
def addPlace (d : Disk) (path : String) : IO Disk := do
  let isThere ← ((← IO.currentDir) / path).pathExists
  if !isThere || (d.entry path).toOption.isSome then return d
  else
    let folders := (d.ensureFolders (Path.parent (Path.normalize (d.absolute path)))).2
    return folders.put path (← readEntry path)

/-- The paths that arguments may name, alone or behind an equals sign. -/
def namedPaths (args : List String) : List String :=
  (args ++ args.filterMap fun text => (OptionForm.cutValue text).2).filter (· != "")

/-- The picture of the disk. -/
def takePicture (args : List String) : IO Disk := do
  let here := (← IO.currentDir).toString
  let empty : Disk := ⟨.folder [], here⟩
  let start := (empty.ensureFolders here).2.put here (← readEntry here)
  (namedPaths args).foldlM addPlace start

/-- The current time. -/
def readTime : IO Moment := do
  let nanoseconds := (← Std.Time.Timestamp.now).toNanosecondsSinceUnixEpoch.val.toNat
  return .ofSeconds (nanoseconds / 1000000000) (nanoseconds % 1000000000 / 1000)

/-- Write the files that have changed. -/
def writeChanges (old new : Disk) : IO Unit := do
  for (path, bytes) in old.filesUnlike new do
    IO.FS.createDirAll (Path.parent path)
    IO.FS.writeBinFile path ⟨bytes.toArray⟩

end SliceLint.Main

open SliceLint in
/-- Run a command line. The time that is told is the time it takes to read the disk. -/
def main (args : List String) : IO UInt32 := do
  let start ← IO.monoNanosNow
  let picture ← Main.takePicture args
  let milliseconds := Binary64.ofQuotient false ((← IO.monoNanosNow) - start) 1000000
  let terminal ← (← IO.getStdout).isTty
  let outcome := runOn terminal picture args ⟨milliseconds, ← Main.readTime⟩
  Main.writeChanges picture outcome.disk
  IO.eprint outcome.errors
  match outcome.crash? with
  | some fault => IO.eprintln (fault.kind ++ ": " ++ fault.text)
  | none => pure ()
  IO.print outcome.output
  return UInt32.ofNat outcome.status
