import SliceLint.Config.HierarchyReading
import SliceLint.ImportPath
import SliceLint.Rule.Builtin

/-!
# Configurations

A configuration says where the sources lie, what import prefixes stand for, how the layers depend
on each other, which files are left out, where the results go, and how each rule is set.
-/

namespace SliceLint

/-- How a rule is set: reported as an error or a warning, or not run. -/
inductive Level where
  | error
  | warning
  | off
deriving DecidableEq, Repr

namespace Level

def name : Level → String
  | error => "error"
  | warning => "warning"
  | off => "off"

/-- The level a word stands for; `warn` is short for `warning`. -/
def ofWord? : String → Option Level
  | "error" => some error
  | "warning" => some warning
  | "warn" => some warning
  | "off" => some off
  | _ => none

/-- The words for the levels, sorted. -/
def names : List String := ["error", "off", "warning"]

/-- The severity that a level gives to reports. -/
def severity? : Level → Option Severity
  | error => some .error
  | warning => some .warning
  | off => none

end Level

/-- The settings of one rule. -/
structure RuleSettings where
  level? : Option Level
  options : List (String × Value)

namespace RuleSettings

def standard : RuleSettings := ⟨none, []⟩

def enabled (s : RuleSettings) : Bool := s.level? != some .off

end RuleSettings

/-- A configuration. -/
structure Config where
  sourceRoot : String
  aliases : Aliases
  hierarchy : Hierarchy
  exclude : List String
  output : String
  rules : List (Builtin × RuleSettings)

namespace Config

/-- The prefixes that stand for the source root unless aliases are configured. -/
def standardPrefixes : List String := ["~/", "@/"]

/-- The aliases that stand for a source root. -/
def standardAliases (sourceRoot : String) : Aliases :=
  standardPrefixes.map fun p => (p, sourceRoot ++ "/")

/-- Files that are left out unless configured otherwise. -/
def standardExclude : List String :=
  ["*/node_modules/*", "*/build/*", "*/dist/*", "*/coverage/*", "*.d.ts"]

/-- The configuration of a project that has none. -/
def standard : Config where
  sourceRoot := "app"
  aliases := standardAliases "app"
  hierarchy := .standard
  exclude := standardExclude
  output := "ruleResults.json"
  rules := []

/-- The settings of a rule. -/
def settings (c : Config) (b : Builtin) : RuleSettings := (c.rules.lookup b).getD .standard

end Config

end SliceLint
