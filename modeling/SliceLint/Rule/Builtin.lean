import SliceLint.Rule.ApiContract
import SliceLint.Rule.ComponentShape
import SliceLint.Rule.FunctionTests
import SliceLint.Rule.LayerBoundary
import SliceLint.Rule.LiteralStyle
import SliceLint.Rule.ServiceImport
import SliceLint.Rule.SliceBaseline

/-!
# The built-in rules

The rules that every project is checked by, in the order in which they are called at one node.
-/

namespace SliceLint

/-- A built-in rule. -/
inductive Builtin where
  | literalStyle
  | layerBoundary
  | componentShape
  | functionTests
  | serviceImport
  | apiContract
  | sliceBaseline
deriving DecidableEq, Repr, Inhabited

namespace Builtin

/-- All built-in rules, in the order of their calls. -/
def all : List Builtin :=
  [literalStyle, layerBoundary, componentShape, functionTests, serviceImport, apiContract,
    sliceBaseline]

/-- The rule as it stands when nothing is configured. -/
def standard : Builtin → Rule
  | literalStyle => LiteralStyle.rule
  | layerBoundary => LayerBoundary.rule
  | componentShape => ComponentShape.rule ComponentShape.standardLimit
  | functionTests => FunctionTests.rule FunctionTests.standardDirectories
  | serviceImport => ServiceImport.rule
  | apiContract => ApiContract.rule
  | sliceBaseline => SliceBaseline.rule SliceBaseline.standardFiles

def info (b : Builtin) : RuleInfo := b.standard.info

def id (b : Builtin) : String := b.info.id

def ofId? (id : String) : Option Builtin := all.find? fun b => b.id == id

/-- The names of the rules, sorted. -/
def ids : List String := Text.sorted (all.map Builtin.id)

end Builtin

end SliceLint
