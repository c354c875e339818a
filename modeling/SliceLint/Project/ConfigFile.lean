import SliceLint.Config.Reading
import SliceLint.Disk.Basic
import SliceLint.Log
import SliceLint.Yaml.NodeValue

/-!
# The configuration file of a project

A project may have a configuration file in its root folder, under one of three names. A project
without one has the standard configuration. Where it cannot be told whether a path leads to a file,
the search stops.

**The reader** (`DocumentReader`). What makes values of the texts of documents is not part of the
program. Of a text that has no value it says whether the text is malformed, whether it refuses a
value in it, or how else it failed. Where no other reader is named, documents are read as YAML.
-/

namespace SliceLint

/-- Why a text has no value: it is no document, or a value in it is refused, or the reader itself
fails. -/
inductive DocumentFault where
  | malformed
  | refused (fault : Fault)
  | failed (fault : Fault)
deriving DecidableEq, Repr

/-- What makes a value of the text of a document. -/
class DocumentReader where
  read : String → Except DocumentFault Value

namespace Yaml

/-- What becomes of a fault: some make the reader itself fail. -/
def ValueFault.raised (f : ValueFault) : DocumentFault :=
  match f with
  | malformed .form => .malformed
  | malformed .overflow | notTruth _ | notMoment | emptyNumber => .failed ⟨f.kind, f.message⟩
  | malformed .codePoint | moment _ | notInteger _ _ | notNumber _ => .refused ⟨f.kind, f.message⟩

/-- Documents are read as YAML. -/
instance reader : DocumentReader := ⟨fun text => (valueOf text).mapError ValueFault.raised⟩

end Yaml

/-- Why a configuration cannot be loaded. -/
inductive LoadFault where
  | unsearchable (fault : Fault)
  | unreadable (path : String) (fault : Fault)
  | undecodable (fault : Text.Utf8Fault)
  | document (name : String) (fault : DocumentFault)
  | config (fault : ConfigFault)
deriving DecidableEq, Repr

namespace LoadFault

/-- The kind of the fault and what is said about it. -/
def shown : LoadFault → Fault
  | unsearchable fault => fault
  | unreadable path fault => ⟨"ValueError", "cannot read " ++ path ++ ": " ++ fault.text⟩
  | undecodable fault => ⟨"UnicodeDecodeError", fault.message⟩
  | document name .malformed => ⟨"ValueError", "invalid YAML in " ++ name⟩
  | document _ (.refused fault) => fault
  | document _ (.failed fault) => fault
  | config fault => ⟨"ValueError", fault.message⟩

/-- The fault makes the configuration invalid. The few others stop the program. -/
def isInvalid : LoadFault → Bool
  | unsearchable _ => false
  | document _ (.failed _) => false
  | _ => true

end LoadFault

namespace Config

/-- The names of configuration files; the first that is there counts. -/
def fileNames : List String := ["fsdlint.yml", "fsdlint.yaml", ".fsdlint.yml"]

/-- The first of some paths that leads to a file. -/
def firstFile? (d : Disk) : List String → Except Fault (Option String)
  | [] => .ok none
  | path :: rest => do
    if ← d.isFile path then return some path
    else firstFile? d rest

/-- The configuration file of a project: the given one, or the one in its root folder. -/
def findFile? (d : Disk) (root : String) (path? : Option String) : Except Fault (Option String) :=
  match path? with
  | some path => .ok (some path)
  | none => firstFile? d (fileNames.map (Path.below root))

/-- The value that a configuration file holds. -/
def readFile [DocumentReader] (d : Disk) (path : String) : Except LoadFault Value :=
  match d.readBytes path with
  | .error f => .error (.unreadable path (f.onPath path))
  | .ok bytes =>
    match Text.decodeStretches bytes with
    | .error f => .error (.undecodable f)
    | .ok text =>
      (DocumentReader.read (Text.withNewlines text)).mapError (.document (Path.name path))

/-- Load a configuration from a file. -/
def loadFile [DocumentReader] (d : Disk) (path : String) : Logged (Except LoadFault Config) :=
  match readFile d path with
  | .error f => ⟨[], .error f⟩
  | .ok v =>
    ⟨[⟨.debug, LogEntry.configChannel, "Loaded config from " ++ path⟩],
      (ofValue v).mapError .config⟩

/-- Load the configuration of a project, from the given file if there is one. -/
def load [DocumentReader] (d : Disk) (root : String) (path? : Option String) :
    Logged (Except LoadFault Config) :=
  match findFile? d root path? with
  | .error f => ⟨[], .error (.unsearchable f)⟩
  | .ok (some path) => loadFile d path
  | .ok none =>
    ⟨[⟨.debug, LogEntry.configChannel, "No config file in " ++ root ++ ", using defaults"⟩],
      .ok standard⟩

end Config

end SliceLint
