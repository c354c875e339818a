import SliceLint.Source.Binding

/-!
# Types

Type expressions, from the loosest binding to the tightest: conditional types, unions,
intersections, prefixed types, and primary types with their bracket suffixes.
-/

namespace SliceLint.Source

open Recogniser

/-! ## Object types -/

/-- The colon of a mapped type, with the sign that adds or removes optionality. -/
def mappedMark (go : Grammar) (m : Mode) : Recogniser :=
  let after (kind sign : String) (h : isPartKind true kind := by exact Eq.refl true) : Recogniser :=
    node kind (chain [token sign, token ":", go .typeExpression m]) h
  choice [
    typeMark go m, after "omitting_type_annotation" "-?", after "adding_type_annotation" "+?",
    after "opting_type_annotation" "?"]

/-- A signature for all keys of a type, or one property for each member of a type. -/
def indexSignature (go : Grammar) (m : Mode) : Recogniser :=
  let inner := m.inner
  let mapped := node "mapped_type_clause" (chain [
    role "name" (name "type_identifier"), keyword "in", role "type" (go .typeExpression inner),
    optional (chain [keyword "as", role "alias" (go .typeExpression inner)])])
  let key := chain [
    role "name" (name "identifier"), token ":", role "index_type" (go .typeExpression inner)]
  node "index_signature" (chain [
    optional (chain [
      optional (role "sign" (choice [token "-", token "+"])),
      modifier "readonly" (nextIn ['['])]),
    token "[", choice [mapped, key], token "]",
    role "type" (mappedMark go m)])

/-- Words before a member that change what it means. -/
def memberModifiers : Recogniser :=
  chain [
    optional (chain [node "accessibility_modifier" (choice [
      keyword "public", keyword "private", keyword "protected"]), guardAt nameFollows]),
    optional (modifier "static" nameFollows),
    optional (node "override_modifier" (modifier "override" nameFollows)),
    optional (modifier "readonly" nameFollows)]

/-- Words before a method that change how it is called. -/
def methodModifiers : Recogniser :=
  chain [
    optional (modifier "async" nameFollows),
    optional (choice [modifier "get" nameFollows, modifier "set" nameFollows, token "*"])]

/-- A method without a body. -/
def methodSignature (go : Grammar) (m : Mode) : Recogniser :=
  node "method_signature" (chain [
    memberModifiers, methodModifiers, role "name" (propertyName go m), optional (token "?"),
    signature go m])

/-- A property of an object type. -/
def propertySignature (go : Grammar) (m : Mode) : Recogniser :=
  node "property_signature" (chain [
    memberModifiers, role "name" (propertyName go m), optional (token "?"),
    optional (role "type" (typeMark go m))])

/-- The body of an object type or of an interface, under the given kind. -/
def objectType (go : Grammar) (m : Mode) (kind : String)
    (h : isPartKind true kind := by exact Eq.refl true) : Recogniser :=
  let inside := m.top
  let construct := node "construct_signature" (chain [
    optional (keyword "abstract"), keyword "new",
    optional (role "type_parameters" (typeParameters go inside)),
    role "parameters" (parameters go inside),
    optional (role "type" (typeMark go inside))])
  let call := node "call_signature" (signature go inside)
  let member := branchAt fun c =>
    match c.token.head with
    | '(' | '<' => call
    | '[' | '-' | '+' =>
      choice [indexSignature go inside, methodSignature go inside, propertySignature go inside]
    | _ =>
      match wordAt c with
      | "new" | "abstract" =>
        choice [construct, methodSignature go inside, propertySignature go inside]
      | "readonly" =>
        choice [indexSignature go inside, methodSignature go inside, propertySignature go inside]
      | "export" =>
        choice [methodSignature go inside, propertySignature go inside, go .statement inside]
      | _ => choice [methodSignature go inside, propertySignature go inside]
  let separator := choice [token ",", token ";"]
  let ends : Recogniser := fun c =>
    if c.statementEnds false || c.token.head == '\x7d' then done c else separator c
  node kind (chain [
    choice [token "\x7b|", lbrace],
    many (choice [separator, chain [member, ends]]),
    choice [token "|\x7d", rbrace]]) h

/-! ## Primary types -/

/-- One member of a tuple type. -/
def tupleMember (go : Grammar) (m : Mode) : Recogniser :=
  let inner := m.inner
  let named := name "identifier"
  choice [
    node "required_parameter" (chain [
      role "name" (choice [node "rest_pattern" (chain [token "...", named]), named]),
      role "type" (typeMark go inner)]),
    node "optional_parameter" (chain [
      role "name" named, token "?", role "type" (typeMark go inner)]),
    node "rest_type" (chain [token "...", go .typeExpression inner]),
    node "optional_type" (chain [
      go .typeExpression inner, token "?"]),
    go .typeExpression inner]

/-- A point follows the word at the next token. -/
def pointFollowsWord (c : Cursor) : Bool :=
  let d := c.token
  match wordLength? d.rest with
  | some n => (d.advance n).token.head == '.'
  | none => false

/-- Names joined by points, the last one a type. -/
def qualifiedType : Recogniser :=
  let rec links : Nat → List Part → Recogniser
    | 0, ts => give ts
    | n + 1, ts => fun c =>
      if pointFollowsWord c.token.step then
        andThen (chain [token ".", role "property" (name "property_identifier")] c) fun us d =>
          links n (gather "nested_identifier" (ts ++ us)) d
      else
        andThen (chain [token ".", role "name" (name "type_identifier")] c) fun us =>
          give (gather "nested_type_identifier" (ts ++ us))
  fun c =>
    if pointFollowsWord c then
      andThen ((name "identifier") c) fun ts d => links d.limit ts d
    else typeName c

/-- The type of a value. -/
def typeQuery (go : Grammar) (m : Mode) : Recogniser :=
  let inner := m.inner
  let imported := node "call_expression" (chain [
    role "function" (constant "import"),
    role "arguments" (node "arguments" (chain [
      token "(", commaList (go .expression inner), token ")"]))])
  let rec links : Nat → List Part → Recogniser
    | 0, ts => give ts
    | n + 1, ts => fun c =>
      if m.lineEnds && c.statementEnds false then give ts c
      else
        match c.token.head with
        | '.' | '?' =>
          extend ts
            (chain [choice [token ".", node "optional_chain" (token "?.")],
              role "property" (choice [privateName, name "property_identifier"])])
            (fun us => links n (gather "member_expression" (ts ++ us))) c
        | '[' =>
          extend ts
            (chain [token "[", role "index" (choice [
              node "predefined_type" (word "predefined_type" isPredefinedType),
              stringLiteral, number]), token "]"])
            (fun us => links n (gather "subscript_expression" (ts ++ us))) c
        | '<' =>
          extend ts (typeArguments go m)
            (fun us => give (gather "instantiation_expression" (ts ++ us))) c
        | _ => give ts c
  node "type_query" (chain [
    keyword "typeof",
    fun c =>
      andThen (choice [imported, constant "this", name "identifier"] c) fun ts d =>
        links d.limit ts d])

/-- A type from a module named in place. -/
def importedType (go : Grammar) (m : Mode) : Recogniser :=
  let call := node "call_expression" (chain [
    role "function" (constant "import"),
    role "arguments" (node "arguments" (chain [
      token "(", commaList (choice [go .typeExpression m.inner, go .expression m.inner]),
      token ")"]))])
  let rec links : Nat → List Part → Recogniser
    | 0, ts => give ts
    | n + 1, ts => fun c =>
      if c.token.head == '.' then
        andThen (chain [token ".", role "property" (name "property_identifier")] c) fun us d =>
          links n (gather "member_expression" (ts ++ us)) d
      else give ts c
  fun c =>
    andThen (call c) fun ts d =>
      andThen (links d.limit ts d) fun ts e =>
        if e.token.head == '<' then
          extend ts (typeArguments go m) (fun us => give (gather "generic_type" (ts ++ us))) e
        else give ts e

/-- The type of a function, or of a constructor after `new`. -/
def functionType (go : Grammar) (m : Mode) : Recogniser :=
  node "function_type" (chain [
    optional (role "type_parameters" (typeParameters go m)),
    role "parameters" (parameters go m), token "=>",
    role "return_type" (choice [asserts go m, typePredicate go m, go .typeExpression m])])

def constructorType (go : Grammar) (m : Mode) : Recogniser :=
  node "constructor_type" (chain [
    optional (keyword "abstract"), keyword "new",
    optional (role "type_parameters" (typeParameters go m)),
    role "parameters" (parameters go m), token "=>",
    role "type" (go .typeExpression m)])

/-- A type without suffixes. -/
def primaryType (go : Grammar) (m : Mode) : Recogniser :=
  let inner := m.inner
  let generic : Recogniser := fun c =>
    andThen (qualifiedType c) fun ts d =>
      if d.token.head == '<' && !(m.lineEnds && d.statementEnds false) then
        extend ts (role "type_arguments" (typeArguments go m))
          (fun us => give (gather "generic_type" (ts ++ us))) d
      else give ts d
  branchAt fun c =>
    match c.token.head with
    | '(' => node "parenthesized_type" (chain [token "(", go .typeExpression inner, token ")"])
    | '\x7b' => objectType go m "object_type"
    | '[' =>
      node "tuple_type" (chain [
        token "[", optional (commaList1 (tupleMember go m)), token "]"])
    | '"' | '\'' => node "literal_type" stringLiteral
    | '\x60' => template "template_literal_type" "template_type" (go .typeExpression inner)
    | '*' => node "existential_type" (token "*")
    | '?' => node "flow_maybe_type" (chain [token "?", go .typeExpression m])
    | '-' | '+' =>
      node "literal_type" (node "unary_expression" (chain [
        role "operator" (choice [token "-", token "+"]), role "argument" number]))
    | ch =>
      if ch.isDigit || ch == '.' then node "literal_type" number
      else
        match wordAt c with
        | "true" => node "literal_type" (name "true")
        | "false" => node "literal_type" (name "false")
        | "null" => node "literal_type" (name "null")
        | "undefined" => node "literal_type" (name "undefined")
        | "this" => node "this_type" (keyword "this")
        | "typeof" => typeQuery go m
        | "import" => importedType go m
        | "unique" =>
          choice [node "predefined_type" (chain [keyword "unique", keyword "symbol"]), generic]
        | w =>
          if isPredefinedType w then node "predefined_type" (keyword w) else generic

/-- A primary type and its bracket suffixes. -/
def suffixedType (go : Grammar) (m : Mode) : Recogniser :=
  let rec suffixes : Nat → List Part → Recogniser
    | 0, ts => give ts
    | n + 1, ts => fun c =>
      if c.token.head == '[' && !(m.lineEnds && c.statementEnds false) then
        if c.token.step.token.head == ']' then
          extend ts (chain [token "[", token "]"])
            (fun us => suffixes n (gather "array_type" (ts ++ us))) c
        else
          extend ts (chain [token "[", go .typeExpression m.inner, token "]"])
            (fun us => suffixes n (gather "lookup_type" (ts ++ us))) c
      else give ts c
  fun c => andThen (primaryType go m c) fun ts d => suffixes d.limit ts d

/-- A type with the words that may lead it. -/
def typeOperand (go : Grammar) (m : Mode) : Recogniser :=
  let typeFollows (c : Cursor) : Bool :=
    isNameStart c.token.head || nextIn ['(', '\x7b', '[', '"', '\'', '\x60', '<', '-'] c
  branchAt fun c =>
    match c.token.head with
    | '(' => choice [functionType go m, suffixedType go m]
    | '<' => functionType go m
    | _ =>
      match wordAt c with
      | "keyof" =>
        choice [
          node "index_type_query"
            (chain [keyword "keyof", guardAt typeFollows, go .typeOperand m]),
          suffixedType go m]
      | "readonly" =>
        choice [
          node "readonly_type"
            (chain [keyword "readonly", guardAt typeFollows, go .typeOperand m]),
          suffixedType go m]
      | "infer" =>
        choice [
          node "infer_type" (chain [
            keyword "infer", name "type_identifier", keyword "extends",
            go .unconditionalType m, guardAt fun c => c.token.head != '?']),
          node "infer_type" (chain [keyword "infer", name "type_identifier"]),
          suffixedType go m]
      | "new" => constructorType go m
      | "abstract" => choice [constructorType go m, suffixedType go m]
      | _ => suffixedType go m

/-! ## Types of several operands -/

/-- Operands joined by an operator, the leftmost innermost; the operator may also lead. -/
def joinedTypes (m : Mode) (kind operator : String) (p : Recogniser)
    (h : isPartKind true kind := by exact Eq.refl true) : Recogniser :=
  let rec loop : Nat → List Part → Recogniser
    | 0, ts => give ts
    | n + 1, ts => fun c =>
      if m.lineEnds && c.statementEnds false then give ts c
      else
        extend ts (chain [token operator, p]) (fun us => loop n (gather kind (ts ++ us) h)) c
  fun c =>
    let first :=
      if operator.toList.head? == some c.token.head then node kind (chain [token operator, p]) h
      else p
    andThen (first c) fun ts d => loop d.limit ts d

/-- A union of intersections. -/
def unconditionalType (go : Grammar) (m : Mode) : Recogniser :=
  joinedTypes m "union_type" "|" (joinedTypes m "intersection_type" "&" (go .typeOperand m))

/-- Any type. -/
def typeExpression (go : Grammar) (m : Mode) : Recogniser := fun c =>
  andThen (unconditionalType go m c) fun ts d =>
    if wordAt d == "extends" && !(m.lineEnds && d.statementEnds false) then
      extend ts
        (chain [
          keyword "extends", role "right" (go .unconditionalType m),
          token "?", role "consequence" (go .typeExpression m.inner),
          token ":", role "alternative" (go .typeExpression m)])
        (fun us => give (gather "conditional_type" (inRoles "left" ts ++ us))) d
    else give ts d

end SliceLint.Source
