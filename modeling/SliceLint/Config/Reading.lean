import SliceLint.Config.Basic

/-!
# Reading a configuration

A document becomes a configuration section by section; the first fault counts. Texts are taken
from values in their plain form, so that numbers and dates may stand where a text is expected.

A rule is set by a word or a truth value, or by a mapping whose entry `severity` is one and whose
other entries are options. The truth values stand for being left as it is and for `off`.
-/

namespace SliceLint

/-- Why a document is no configuration. -/
inductive ConfigFault where
  | notMapping
  | unknownKeys (keys : List String)
  | emptySourceRoot
  | aliasesNotMapping
  | emptyAlias
  | hierarchy (fault : HierarchyFault)
  | excludeNotList
  | rulesNotMapping
  | unknownRule (id : String)
  | settingsMalformed (id : String)
  | unknownLevel (id word : String)
deriving DecidableEq, Repr

def ConfigFault.message : ConfigFault → String
  | notMapping => "configuration must be a mapping"
  | unknownKeys keys => "unknown configuration keys: " ++ Text.quotedList keys
  | emptySourceRoot => "source_root must not be empty"
  | aliasesNotMapping => "aliases must be a mapping of import prefix -> directory"
  | emptyAlias => "aliases: prefix must not be empty"
  | hierarchy fault => fault.message
  | excludeNotList => "exclude must be a list of glob patterns"
  | rulesNotMapping => "rules must be a mapping of rule id -> severity or settings"
  | unknownRule id =>
    "rules: unknown rule '" ++ id ++ "', must be one of " ++ Text.quotedList Builtin.ids
  | settingsMalformed id => "rules." ++ id ++ ": expected a severity string or a mapping"
  | unknownLevel id word =>
    "rules." ++ id ++ ": invalid severity '" ++ word ++ "', must be one of " ++
      Text.quotedList Level.names

/-- Put a value under a key; a key that is there keeps its place. -/
def putEntry {α β : Type} [BEq α] (entries : List (α × β)) (key : α) (value : β) :
    List (α × β) :=
  match entries with
  | [] => [(key, value)]
  | (k, v) :: rest => if k == key then (key, value) :: rest else (k, v) :: putEntry rest key value

namespace RuleSettings

/-- Read the level of a rule. -/
def readLevel (id : String) : Value → Except ConfigFault (Option Level)
  | .null => .ok none
  | .bool b => .ok (if b then none else some .off)
  | v =>
    match Level.ofWord? v.plain with
    | some level => .ok (some level)
    | none => .error (.unknownLevel id v.plain)

/-- The options among the entries of a mapping. -/
def optionsOf (entries : List (Value × Value)) : List (String × Value) :=
  (entries.filter fun (k, _) => !k.same (.text "severity")).foldl
    (fun options (k, v) => putEntry options k.plain v) []

/-- Read the settings of a rule. -/
def read (id : String) : Value → Except ConfigFault RuleSettings
  | .mapping entries =>
    (readLevel id ((Value.find? entries "severity").getD .null)).map fun level? =>
      ⟨level?, optionsOf entries⟩
  | .null => .ok standard
  | .bool b => (readLevel id (.bool b)).map fun level? => ⟨level?, []⟩
  | .text s => (readLevel id (.text s)).map fun level? => ⟨level?, []⟩
  | _ => .error (.settingsMalformed id)

end RuleSettings

namespace Config

/-- The sections of a configuration. -/
def sections : List String := ["source_root", "aliases", "layers", "exclude", "output", "rules"]

/-- Refuse keys that name no section. -/
def checkKeys (entries : List (Value × Value)) : Except ConfigFault Unit :=
  let unknown := entries.filter fun (k, _) => !sections.any fun s => k.same (.text s)
  if unknown.isEmpty then .ok ()
  else .error (.unknownKeys (Text.sorted (unknown.map fun (k, _) => k.plain)))

/-- Read the directory of the sources. -/
def readSourceRoot (v? : Option Value) : Except ConfigFault String :=
  let root := Text.trim '/' ((v?.map Value.plain).getD standard.sourceRoot)
  if root == "" then .error .emptySourceRoot else .ok root

/-- Read what import prefixes stand for. -/
def readAliases (sourceRoot : String) : Option Value → Except ConfigFault Aliases
  | none => .ok (standardAliases sourceRoot)
  | some (.mapping entries) =>
    entries.foldlM (fun aliases (k, v) =>
      if k.plain == "" then .error .emptyAlias else .ok (putEntry aliases k.plain v.plain)) []
  | some _ => .error .aliasesNotMapping

/-- Read the hierarchy. -/
def readHierarchy : Option Value → Except ConfigFault Hierarchy
  | none => .ok .standard
  | some v => (Hierarchy.ofValue v).mapError .hierarchy

/-- Read the patterns of files that are left out. -/
def readExclude : Option Value → Except ConfigFault (List String)
  | none => .ok standardExclude
  | some (.list items) => .ok (items.map Value.plain)
  | some _ => .error .excludeNotList

/-- Read the settings of one rule. -/
def readRule (entry : Value × Value) : Except ConfigFault (Builtin × RuleSettings) :=
  match Builtin.ofId? entry.1.plain with
  | none => .error (.unknownRule entry.1.plain)
  | some b => (RuleSettings.read b.id entry.2).map fun settings => (b, settings)

/-- Read the settings of the rules. -/
def readRules : Option Value → Except ConfigFault (List (Builtin × RuleSettings))
  | none => .ok []
  | some .null => .ok []
  | some (.mapping entries) => do
    let rules ← entries.mapM readRule
    return rules.foldl (fun kept (b, settings) => putEntry kept b settings) []
  | some _ => .error .rulesNotMapping

/-- Read a configuration. -/
def ofValue : Value → Except ConfigFault Config
  | .null => .ok standard
  | .mapping entries => do
    let find := Value.find? entries
    checkKeys entries
    let sourceRoot ← readSourceRoot (find "source_root")
    let aliases ← readAliases sourceRoot (find "aliases")
    let hierarchy ← readHierarchy (find "layers")
    let exclude ← readExclude (find "exclude")
    let output := ((find "output").map Value.plain).getD standard.output
    let rules ← readRules (find "rules")
    return ⟨sourceRoot, aliases, hierarchy, exclude, output, rules⟩
  | _ => .error .notMapping

end Config

end SliceLint
