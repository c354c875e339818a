import SliceLint.Rule.Basic

/-!
# The baseline of a feature

Every slice of the feature layer has certain files. What is missing is reported once, at the file
that owns the slice, whether or not that file can be read.
-/

namespace SliceLint.SliceBaseline

open Text

def info : RuleInfo where
  id := "feature-slice-baseline"
  description := "Enforce required baseline files in feature slices"
  severity := .warning
  messages := [
    ("missingBaseline", [.text "Feature slice missing required file: ", .gap "filename"])]
  severities := []

/-- What stands for the name of the slice in the name of a file. -/
def placeholder : String := "\x7bslice\x7d"

/-- The files of a slice unless configured otherwise. -/
def standardFiles : List String :=
  ["api.ts", "api.spec.ts", "hooks.ts", "hooks.spec.ts", "README.md",
    "ui/" ++ placeholder ++ ".page.tsx", "ui/" ++ placeholder ++ ".page.spec.tsx"]

/-- The files that a slice is to have. -/
def expected (files : List String) (slice : String) : List String :=
  files.map fun file => replace file placeholder slice

/-- The directory of a slice. -/
def sliceDirectory (run : RunContext) (slice : String) : String :=
  Path.below (Path.below (Path.below run.projectRoot run.sourceRoot) "features") slice

/-- The finding for a missing file. -/
def missing (file : String) : Finding :=
  ⟨"missingBaseline", .origin, "Create " ++ file, [("filename", .text file)]⟩

/-- The finding for a file of a slice, if it is missing. -/
def checkFile (view : FileView) (directory file : String) : Except Fault (List Finding) := do
  if ← view.isFile (Path.below directory file) then return [] else return [missing file]

/-- The findings of a file: those of its slice, if it is the owner. -/
def check (files : List String) (ctx : FileContext) : Except Fault (List Finding) :=
  match ctx.coordinate with
  | some ⟨.features, some slice⟩ =>
    if ctx.run.ownsSlice ctx.relPath ⟨.features, some slice⟩ then
      let directory := sliceDirectory ctx.run slice
      ((expected files slice).mapM (checkFile ctx.run.view directory)).map List.flatten
    else .ok []
  | _ => .ok []

/-- Missing files of feature slices are reported. -/
def rule (files : List String) : Rule where
  info := info
  kinds := ["program"]
  onNode := fun _ ctx s => (check files ctx, s)
  onExit := Rule.silent
  onUnparsed? := some fun ctx s => (check files ctx, s)

end SliceLint.SliceBaseline
