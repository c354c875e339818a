import SliceLint.Source.Expression

/-!
# Statements and declarations

Statements are told apart by their first word. A word that starts no statement starts an
expression, and a construct that fails is tried as an expression where its first word may be a
name.
-/

namespace SliceLint.Source

open Recogniser

/-! ## Variables -/

/-- One variable of a declaration. -/
def declarator (go : Grammar) (m : Mode) : Recogniser :=
  let plain := name "identifier"
  node "variable_declarator" (chain [
    role "name" (branchAt fun c =>
      if nextIn ['\x7b', '['] c then destructuring go m else plain),
    optional (chain [token "!", ahead (token ":")]),
    optional (role "type" (typeMark go m)),
    optional (initializer go m)])

/-- Variables declared by `let` or `const`, or by `var`. -/
def variableList (go : Grammar) (m : Mode) : Recogniser :=
  let of (kind w : String) (h : isPartKind true kind := by exact Eq.refl true) : Recogniser :=
    node kind (chain [
      role "kind" (keyword w), separated (token ",") (declarator go m), semicolon true]) h
  branchAt fun c =>
    match wordAt c with
    | "let" => of "lexical_declaration" "let"
    | "const" => of "lexical_declaration" "const"
    | "var" => of "variable_declaration" "var"
    | _ => refuse

/-! ## Functions, classes and types -/

/-- A function with a name, with or without a body. -/
def functionDeclaration (go : Grammar) (m : Mode) : Recogniser := fun c =>
  let head := chain [
    optional (keyword "async"), keyword "function", optional (token "*"),
    role "name" (name "identifier"), signature go m.top]
  andThen (head c) fun ts d =>
    let withBody (us : List Part) : List Part :=
      if ts.any (fun t => t.kind == "*") then gather "generator_function_declaration" (ts ++ us)
      else gather "function_declaration" (ts ++ us)
    if d.token.head == '\x7b' then
      andThen (body go m d) fun us => give (withBody us)
    else
      andThen ((if d.signatureEnds then done else token ";") d) fun us =>
        give (gather "function_signature" (ts ++ us))

/-- A class with a name. -/
def classDeclaration (go : Grammar) (m : Mode) : Recogniser :=
  let of (kind : String) (lead : List Recogniser)
      (h : isPartKind true kind := by exact Eq.refl true) : Recogniser :=
    node kind (chain ([many (role "decorator" (decorator go m))] ++ lead ++ [
      keyword "class", role "name" (name "type_identifier"),
      optional (role "type_parameters" (typeParameters go m.inner)),
      heritage go m, role "body" (classBody go m)])) h
  choice [of "class_declaration" [], of "abstract_class_declaration" [keyword "abstract"]]

def interfaceDeclaration (go : Grammar) (m : Mode) : Recogniser :=
  node "interface_declaration" (chain [
    keyword "interface", role "name" (name "type_identifier"),
    optional (role "type_parameters" (typeParameters go m.inner)),
    optional (node "extends_type_clause" (chain [
      keyword "extends", separated (token ",") (go .unconditionalType m.inner)])),
    role "body" (objectType go m "interface_body")])

def typeAlias (go : Grammar) (m : Mode) : Recogniser :=
  node "type_alias_declaration" (chain [
    keyword "type", role "name" (name "type_identifier"),
    optional (role "type_parameters" (typeParameters go m.inner)),
    token "=", role "value" (go .typeExpression m.top), semicolon false])

def enumDeclaration (go : Grammar) (m : Mode) : Recogniser :=
  let inner := m.inner
  let member := choice [
    node "enum_assignment" (chain [role "name" (propertyName go m), initializer go inner]),
    role "name" (propertyName go m)]
  node "enum_declaration" (chain [
    optional (keyword "const"), keyword "enum", role "name" (name "identifier"),
    role "body" (node "enum_body" (chain [lbrace, optional (commaList1 member), rbrace]))])

/-! ## Modules -/

/-- Names joined by points. -/
def nestedName : Recogniser :=
  let rec links : Nat → List Part → Recogniser
    | 0, ts => give ts
    | n + 1, ts => fun c =>
      if c.token.head == '.' then
        andThen (chain [token ".", role "property" (name "property_identifier")] c) fun us d =>
          links n (gather "nested_identifier" (ts ++ us)) d
      else give ts c
  fun c => andThen ((name "identifier") c) fun ts d => links d.limit ts d

/-- A module or a namespace. -/
def moduleDeclaration (go : Grammar) (m : Mode) : Recogniser :=
  let rest := [
    role "name" (choice [stringLiteral, nestedName]),
    branchAt fun c => if c.token.head == '\x7b' then body go m else done]
  branchAt fun c =>
    if wordAt c == "module" then
      node "module" (chain ([keyword "module", guardAt fun d => d.index < d.token.index] ++ rest))
    else node "internal_module" (chain ([keyword "namespace"] ++ rest))

/-- Another name for a member of a namespace. -/
def importAlias : Recogniser :=
  node "import_alias" (chain [
    keyword "import", name "identifier", token "=", nestedName, semicolon false])

/-- Where an import or an export comes from. -/
def fromClause : Recogniser := chain [keyword "from", role "source" stringLiteral]

/-- A module's name for what it exports. -/
def exportedName : Recogniser := choice [stringLiteral, name "identifier"]

/-- One name of an import, possibly renamed, possibly a type only. -/
def importSpecifier : Recogniser :=
  let renamed (marks : List Recogniser) : Recogniser := node "import_specifier" (chain (marks ++ [
    role "name" exportedName, keyword "as", role "alias" (name "identifier")]))
  let plain (marks : List Recogniser) : Recogniser := node "import_specifier" (chain (marks ++ [
    role "name" (name "identifier")]))
  branchAt fun c =>
    match wordAt c with
    | "type" =>
      let next := (c.token.advance 4)
      if wordAt next == "as" || nextIn [',', '\x7d'] next then choice [renamed [], plain []]
      else choice [renamed [keyword "type"], plain [keyword "type"]]
    | "typeof" => choice [renamed [keyword "typeof"], plain [keyword "typeof"]]
    | _ => choice [renamed [], plain []]

/-- What an import binds. -/
def importClause : Recogniser :=
  let all := node "namespace_import" (chain [token "*", keyword "as", name "identifier"])
  let named := node "named_imports" (chain [
    lbrace, optional (commaList1 importSpecifier), rbrace])
  let grouped := branchAt fun c => if c.token.head == '*' then all else named
  node "import_clause" (choice [
    grouped,
    chain [name "identifier", optional (chain [token ",", grouped])]])

/-- An import of a module. -/
def importStatement (go : Grammar) (m : Mode) : Recogniser :=
  let required := node "import_require_clause" (chain [
    name "identifier", token "=", keyword "require", token "(",
    role "source" stringLiteral, token ")"])
  let what := choice [
    role "source" stringLiteral, chain [importClause, fromClause], required]
  let conditions := node "import_attribute" (chain [
    choice [keyword "with", keyword "assert"], object go m])
  let kindMark := branchAt fun c =>
    match wordAt c with
    | "type" =>
      let next := c.token.advance 4
      if wordAt next == "from" || next.token.head == ',' then done else keyword "type"
    | "typeof" => keyword "typeof"
    | _ => done
  node "import_statement" (chain [
    keyword "import", kindMark, what,
    branchAt fun c => if c.statementEnds false then done else optional conditions,
    semicolon false])

/-! ## Declarations and exports -/

/-- A declaration, told by its first word. -/
def declaration (go : Grammar) (m : Mode) : Recogniser := branchAt fun c =>
  match wordAt c with
  | "function" | "async" => functionDeclaration go m
  | "class" => classDeclaration go m
  | "abstract" => classDeclaration go m
  | "const" => choice [enumDeclaration go m, variableList go m]
  | "let" | "var" => variableList go m
  | "type" => typeAlias go m
  | "interface" => interfaceDeclaration go m
  | "enum" => enumDeclaration go m
  | "namespace" | "module" => moduleDeclaration go m
  | "import" => importAlias
  | "declare" => ambient
  | _ => if c.token.head == '@' then classDeclaration go m else refuse
where
  /-- A declaration of something defined elsewhere. -/
  ambient : Recogniser :=
    node "ambient_declaration" (chain [
      keyword "declare",
      branchAt fun c =>
        match wordAt c with
        | "global" => chain [keyword "global", go .block m]
        | "module" =>
          choice [
            chain [keyword "module", token ".", name "property_identifier", token ":",
              go .typeExpression m, semicolon false],
            moduleDeclaration go m]
        | "function" | "async" | "class" | "abstract" | "const" | "let" | "var" | "type"
        | "interface" | "enum" | "namespace" | "import" => declared
        | "declare" => declared
        | _ => if c.token.head == '@' then classDeclaration go m else refuse])
  /-- The declaration that is declared. -/
  declared : Recogniser := branchAt fun c =>
    match wordAt c with
    | "function" | "async" => functionDeclaration go m
    | "class" | "abstract" => classDeclaration go m
    | "const" => choice [enumDeclaration go m, variableList go m]
    | "let" | "var" => variableList go m
    | "type" => typeAlias go m
    | "interface" => interfaceDeclaration go m
    | "enum" => enumDeclaration go m
    | "namespace" => moduleDeclaration go m
    | "import" => importAlias
    | _ => refuse

/-- An export. -/
def exportStatement (go : Grammar) (m : Mode) : Recogniser :=
  let specifier :=
    let names := chain [
      role "name" exportedName, optional (chain [keyword "as", role "alias" exportedName])]
    branchAt fun c =>
      match wordAt c with
      | "type" | "typeof" =>
        choice [
          node "export_specifier" (chain [keyword (wordAt c), names, guardAt (nextIn [',', '\x7d'])]),
          node "export_specifier" names]
      | _ => node "export_specifier" names
  let clause := node "export_clause" (chain [lbrace, optional (commaList1 specifier), rbrace])
  let from? : Recogniser := branchAt fun c =>
    if wordAt c == "from" then fromClause else done
  let value := chain [role "value" (go .expression m.top), semicolon true]
  let what := branchAt fun c =>
    match c.token.head with
    | '*' =>
      choice [
        chain [node "namespace_export" (chain [token "*", keyword "as", exportedName]),
          fromClause, semicolon false],
        chain [token "*", fromClause, semicolon false]]
    | '\x7b' => chain [clause, from?, semicolon false]
    | '=' => chain [token "=", go .expression m.top, semicolon true]
    | _ =>
      let declared := role "declaration" (declaration go m)
      match wordAt c with
      | "default" => chain [keyword "default", choice [declared, value]]
      | "type" => choice [declared, chain [keyword "type", clause, from?, semicolon false]]
      | "as" => chain [keyword "as", keyword "namespace", name "identifier", semicolon false]
      | _ => declared
  node "export_statement" (chain [
    many (role "decorator" (decorator go m)), keyword "export", what])

/-! ## Control flow -/

/-- The head of a loop over the members of a value. -/
def forIn (go : Grammar) (m : Mode) : Recogniser :=
  let inner := m.inner
  let bound := branchAt fun c =>
    if nextIn ['\x7b', '['] c then destructuring go inner else name "identifier"
  let left := branchAt fun c =>
    match wordAt c with
    | "var" => chain [role "kind" (keyword "var"), role "left" bound,
        optional (initializer go { inner with inOperator := false })]
    | "const" => chain [role "kind" (keyword "const"), role "left" bound]
    | "let" =>
      choice [
        chain [role "kind" (keyword "let"), role "left" bound,
          guardAt fun d => ["in", "of"].contains (wordAt d)],
        role "left" (go .pattern { inner with inOperator := false })]
    | _ =>
      role "left" (choice [
        go .pattern { inner with inOperator := false }, parenthesized go inner])
  node "for_in_statement" (chain [
    keyword "for", optional (keyword "await"), token "(", left,
    role "operator" (choice [keyword "in", keyword "of"]),
    role "right" (go .sequence inner), token ")", role "body" (go .statement m)])

/-- A loop with a counter. -/
def forLoop (go : Grammar) (m : Mode) : Recogniser :=
  let inner := m.inner
  let start := { inner with inOperator := false }
  let empty := node "empty_statement" (token ";")
  node "for_statement" (chain [
    keyword "for", token "(",
    role "initializer" (choice [empty, variableList go start, chain [go .sequence start, token ";"]]),
    role "condition" (choice [empty, chain [go .sequence inner, token ";"]]),
    optional (role "increment" (go .sequence inner)), token ")",
    role "body" (go .statement m)])

/-- The cases of a `switch`. -/
def switchBody (go : Grammar) (m : Mode) : Recogniser :=
  let statements := many (chain [
    guardAt fun c => !(["case", "default"].contains (wordAt c)), role "body" (go .statement m)])
  let case_ := node "switch_case" (chain [
    keyword "case", role "value" (go .sequence m.inner), token ":", statements])
  let default_ := node "switch_default" (chain [keyword "default", token ":", statements])
  node "switch_body" (chain [lbrace, many (choice [case_, default_]), rbrace])

/-- A keyword with a part that may be left out. -/
def jump (kind w : String) (part : Recogniser)
    (h : isPartKind true kind := by exact Eq.refl true) : Recogniser :=
  node kind (chain [
    keyword w, branchAt fun c => if c.statementEnds false then done else optional part,
    semicolon true]) h

/-- An expression used as a statement. -/
def expressionStatement (go : Grammar) (m : Mode) : Recogniser :=
  node "expression_statement" (chain [go .sequence m.top, semicolon true])

/-- A comment in the form of a markup comment. -/
def markupComment : Recogniser :=
  leafOf "html_comment" true fun cs =>
    if "<!--".toList.isPrefixOf cs || "-->".toList.isPrefixOf cs then
      some (cs.takeWhile fun c => c != '\n' && c != '\u2028' && c != '\u2029').length
    else none

/-- A statement with a label. -/
def labeled (go : Grammar) (m : Mode) : Recogniser :=
  node "labeled_statement" (chain [
    role "label" (name "statement_identifier"), token ":", role "body" (go .statement m)])

/-- A statement that starts with a keyword no name can be. -/
def keywordStatement? (go : Grammar) (m : Mode) (w : String) : Option Recogniser :=
  let condition := role "condition" (parenthesized go m)
  let label := role "label" (name "statement_identifier")
  match w with
  | "if" => some <| node "if_statement" (chain [
      keyword "if", condition, role "consequence" (go .statement m),
      optional (role "alternative" (node "else_clause" (chain [
        keyword "else", go .statement m])))])
  | "for" => some <| choice [forIn go m, forLoop go m]
  | "while" => some <| node "while_statement" (chain [
      keyword "while", condition, role "body" (go .statement m)])
  | "do" => some <| node "do_statement" (chain [
      keyword "do", role "body" (go .statement m), keyword "while", condition,
      optional (token ";")])
  | "switch" => some <| node "switch_statement" (chain [
      keyword "switch", role "value" (parenthesized go m), role "body" (switchBody go m)])
  | "try" => some <| node "try_statement" (chain [
      keyword "try", role "body" (go .block m),
      optional (role "handler" (node "catch_clause" (chain [
        keyword "catch",
        optional (chain [token "(", role "parameter" (branchAt fun c =>
          if nextIn ['\x7b', '['] c then destructuring go m.inner else name "identifier"),
          optional (role "type" (typeMark go m.inner)), token ")"]),
        body go m]))),
      optional (role "finalizer" (node "finally_clause" (chain [keyword "finally", body go m])))])
  | "with" => some <| node "with_statement" (chain [
      keyword "with", role "object" (parenthesized go m), role "body" (go .statement m)])
  | "return" => some <| jump "return_statement" "return" (go .sequence m.top)
  | "throw" => some <| node "throw_statement" (chain [
      keyword "throw", go .sequence m.top, semicolon true])
  | "break" => some <| jump "break_statement" "break" label
  | "continue" => some <| jump "continue_statement" "continue" label
  | "debugger" => some <| jump "debugger_statement" "debugger" refuse
  | "var" => some <| variableList go m.top
  | "const" => some <| choice [enumDeclaration go m, variableList go m.top]
  | "enum" => some <| enumDeclaration go m
  | "interface" => some <| interfaceDeclaration go m
  | _ => none

/-- Any statement. -/
def statement (go : Grammar) (m : Mode) : Recogniser :=
  let plain := expressionStatement go m
  let unbroken (w : String) (p : Recogniser) : Recogniser := fun c =>
    if (c.token.advance w.length).statementEnds true then plain c else choice [p, plain] c
  chain [
    branchAt fun c => if nextIn ['<', '-'] c then many markupComment else done,
    branchAt fun c =>
      match c.token.head with
      | ';' => node "empty_statement" (token ";")
      | '\x7b' => choice [go .block m, plain]
      | '@' => choice [classDeclaration go m, exportStatement go m, plain]
      | _ =>
        let w := wordAt c
        if w == "" then plain
        else
          match keywordStatement? go m w with
          | some p => p
          | none =>
            let next := c.token.advance w.length
            if next.token.head == ':' then choice [labeled go m, plain]
            else
              match w with
              | "import" => choice [importStatement go m, importAlias, plain]
              | "export" => unbroken w (exportStatement go m)
              | "function" | "class" => choice [declaration go m.top, plain]
              | "let" | "async" | "type" | "module" | "declare" | "abstract" =>
                unbroken w (declaration go m.top)
              | "namespace" =>
                unbroken w (node "expression_statement"
                  (chain [moduleDeclaration go m, optional (token ";")]))
              | _ => plain]

/-- Statements in braces. -/
def block (go : Grammar) (m : Mode) : Recogniser :=
  node "statement_block" (chain [lbrace, many (go .statement m.top), rbrace])

end SliceLint.Source
