import SliceLint.Yaml.Spot

/-!
# Tokens of a YAML text

The marks that give a document its shape, and the scalars between them. Blocks have no marks of
their own in the text; their starts and ends follow from the indentation.
-/

namespace SliceLint.Yaml

/-- The tag of a node as it is written: a handle, if it has one, and what follows it. -/
structure TagText where
  handle? : Option String
  suffix : String
deriving DecidableEq, Repr

inductive Token where
  | streamEnd
  | version (major : Nat)
  | tagHandle (handle lead : String)
  | directive
  | documentStart
  | documentEnd
  | blockSequence
  | blockMapping
  | blockEnd
  | sequenceStart
  | sequenceEnd
  | mappingStart
  | mappingEnd
  | blockEntry
  | flowEntry
  | key
  | value
  | alias (name : String)
  | anchor (name : String)
  | tag (text : TagText)
  | scalar (plain : Bool) (text : String)
deriving DecidableEq, Repr

end SliceLint.Yaml
