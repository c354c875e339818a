import SliceLint.Config.Reading
import SliceLint.Engine.Verdict

/-!
# Options of rules

Three of the rules take an option: the greatest number of lines, the directories of utility
functions, and the files of a feature slice. The rules that a configuration enables are made from
their options, in the order of the built-in rules.
-/

namespace SliceLint

/-- Why the options of a rule are refused. -/
inductive OptionFault where
  | unexpected (b : Builtin) (names : List String)
  | limit (value : Value)
  | directories
  | files

def OptionFault.message : OptionFault → String
  | unexpected b names =>
    "rules." ++ b.id ++ ": invalid options " ++ Text.quotedList (Text.sorted names)
  | limit value =>
    Builtin.componentShape.id ++ ": max_lines must be a positive integer, got " ++ value.exact
  | directories => Builtin.functionTests.id ++ ": directories must be a list of paths"
  | files => Builtin.sliceBaseline.id ++ ": files must be a list of slice-relative paths"

/-- What a value holds when it is gone through. -/
inductive Members where
  | texts (names : List String)
  | others
  | single
deriving DecidableEq, Repr

namespace Members

/-- All of several values as texts. -/
def ofValues (items : List Value) : Members :=
  match items.mapM fun | Value.text s => some s | _ => none with
  | some names => .texts names
  | none => .others

/-- The members of a value: of a mapping its keys. A text does not count as a list. -/
def ofValue : Value → Members
  | .list items => ofValues items
  | .tuple items => ofValues items
  | .set items => ofValues items
  | .mapping entries => ofValues (entries.map (·.1))
  | .bytes bs => if bs.isEmpty then .texts [] else .others
  | .text _ => .others
  | _ => .single

end Members

/-- The option of a rule, if it has one. -/
def Builtin.optionName? : Builtin → Option String
  | .componentShape => some "max_lines"
  | .functionTests => some "directories"
  | .sliceBaseline => some "files"
  | _ => none

/-- A built-in rule with its option. -/
inductive ConfiguredRule where
  | literalStyle
  | layerBoundary
  | componentShape (limit : Nat)
  | functionTests (directories : List String)
  | serviceImport
  | apiContract
  | sliceBaseline (files : List String)
deriving DecidableEq, Repr

namespace ConfiguredRule

def builtin : ConfiguredRule → Builtin
  | literalStyle => .literalStyle
  | layerBoundary => .layerBoundary
  | componentShape _ => .componentShape
  | functionTests _ => .functionTests
  | serviceImport => .serviceImport
  | apiContract => .apiContract
  | sliceBaseline _ => .sliceBaseline

def rule : ConfiguredRule → Rule
  | literalStyle => LiteralStyle.rule
  | layerBoundary => LayerBoundary.rule
  | componentShape limit => ComponentShape.rule limit
  | functionTests directories => FunctionTests.rule directories
  | serviceImport => ServiceImport.rule
  | apiContract => ApiContract.rule
  | sliceBaseline files => SliceBaseline.rule files

/-- The rule without options. -/
def standard : Builtin → ConfiguredRule
  | .literalStyle => literalStyle
  | .layerBoundary => layerBoundary
  | .componentShape => componentShape ComponentShape.standardLimit
  | .functionTests => functionTests FunctionTests.standardDirectories
  | .serviceImport => serviceImport
  | .apiContract => apiContract
  | .sliceBaseline => sliceBaseline SliceBaseline.standardFiles

/-- Read the greatest number of lines. -/
def readLimit (v : Value) : Except OptionFault ConfiguredRule :=
  match v with
  | .int n => if n < 1 then .error (.limit v) else .ok (componentShape n.toNat)
  | _ => .error (.limit v)

/-- Read the value of the one option that a rule has. -/
def readOption (b : Builtin) (v : Value) : Except OptionFault ConfiguredRule :=
  match b, Members.ofValue v with
  | .componentShape, _ => readLimit v
  | .functionTests, .texts names => .ok (functionTests names)
  | .functionTests, .others => .error .directories
  | .sliceBaseline, .texts names => .ok (sliceBaseline names)
  | .sliceBaseline, .others => .error .files
  | b, _ => .error (.unexpected b (b.optionName?.toList))

/-- Make a rule from its options. -/
def ofOptions (b : Builtin) (options : List (String × Value)) :
    Except OptionFault ConfiguredRule :=
  match options with
  | [] => .ok (standard b)
  | [(name, v)] =>
    if b.optionName? == some name then readOption b v else .error (.unexpected b [name])
  | _ => .error (.unexpected b (options.map (·.1)))

end ConfiguredRule

namespace Config

/-- The rules that a configuration enables. -/
def enabledRules (c : Config) : Except OptionFault (List ConfiguredRule) :=
  (Builtin.all.filter fun b => (c.settings b).enabled).mapM fun b =>
    ConfiguredRule.ofOptions b (c.settings b).options

/-- The severities that a configuration gives to the rules it enables. -/
def overrides (c : Config) : List (String × Severity) :=
  Builtin.all.filterMap fun b =>
    ((c.settings b).level?.bind Level.severity?).map fun s => (b.id, s)

/-- The rules of a configuration with their severities. -/
def engine (c : Config) : Except OptionFault Engine :=
  c.enabledRules.map fun rules => ⟨rules.map ConfiguredRule.rule, c.overrides⟩

end Config

end SliceLint
