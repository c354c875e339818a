import SliceLint.Source.Program
import SliceLint.Source.Tree

/-!
# Dialects and files

The extension of a file selects the dialect it is read in. A file whose text no statement list
covers has a fault, whose place is reported.
-/

namespace SliceLint

/-- A dialect of the language: with or without markup elements. -/
inductive Dialect where
  | plain
  | markup
deriving DecidableEq, Repr

namespace Dialect

def name : Dialect → String
  | plain => "typescript"
  | markup => "tsx"

def hasMarkup : Dialect → Bool
  | plain => false
  | markup => true

/-- The dialect of files with the given extension. -/
def ofExtension? : String → Option Dialect
  | ".ts" | ".mts" => some plain
  | ".js" | ".tsx" | ".jsx" => some markup
  | _ => none

/-- The extensions of files that are read, sorted. -/
def extensions : List String := [".js", ".jsx", ".mts", ".ts", ".tsx"]

end Dialect

end SliceLint
