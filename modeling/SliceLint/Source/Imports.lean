import SliceLint.Source.Tree

/-!
# What a module imports and exports

Facts read off the tree of an import or an export statement: the module named, the names bound
to values, and whether types alone are imported.

A name imported as a type binds no value. A statement imports types alone when it is marked so,
or when it consists of named imports each of which is marked.
-/

namespace SliceLint

namespace Tree

/-- The module an import statement names, unless the name is empty. -/
def importSource? (t : Tree) : Option String :=
  match t.children.find? fun c => c.kind == "string" with
  | some s => if s.unquoted == "" then none else some s.unquoted
  | none => none

/-- The keyword `type` is among the children. -/
def marksType (t : Tree) : Bool :=
  t.children.any fun c => c.kind == "type" && !c.named

def importClause? (t : Tree) : Option Tree :=
  t.namedChildren.find? fun c => c.kind == "import_clause"

/-- The statement imports types alone. -/
def importsTypesOnly (t : Tree) : Bool :=
  t.marksType ||
    match t.importClause? with
    | none => false
    | some clause =>
      match clause.namedChildren with
      | [part] =>
        let specifiers := part.namedChildren.filter fun s => s.kind == "import_specifier"
        part.kind == "named_imports" && !specifiers.isEmpty && specifiers.all marksType
      | _ => false

/-- The local name of one named import, unless it is a type. -/
def specifierBinding? (spec : Tree) : Option String :=
  if spec.kind != "import_specifier" || spec.marksType then none
  else
    ((spec.childInRole? "alias").or (spec.childInRole? "name")).map fun binding =>
      if binding.kind == "string" then binding.unquoted else binding.lexeme

/-- The names that one part of an import clause binds. -/
def clauseBindings (part : Tree) : List String :=
  match part.kind with
  | "identifier" => [part.lexeme]
  | "namespace_import" =>
    (part.namedChildren.find? fun c => c.kind == "identifier").toList.map lexeme
  | "named_imports" => part.namedChildren.filterMap specifierBinding?
  | _ => []

/-- The names that an import statement binds to values, in source order. -/
def importBindings (t : Tree) : List String :=
  match t.importClause? with
  | none => []
  | some clause => clause.namedChildren.flatMap clauseBindings

/-- The node is an export of the module's default value. -/
def exportsDefault (t : Tree) : Bool :=
  t.kind == "export_statement" && t.children.any fun c => c.kind == "default" && !c.named

end Tree

/-- The name follows the convention for hooks: `use`, then a capital letter or a digit. -/
def isHookName (name : String) : Bool :=
  match name.toList with
  | 'u' :: 's' :: 'e' :: c :: _ => c.isUpper || c.isDigit
  | _ => false

/-- The names of hooks among the given names. -/
def hookNames (names : List String) : List String := names.filter isHookName

end SliceLint
