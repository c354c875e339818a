import SliceLint.Source.Literal

/-!
# Names, patterns and parameters

What may stand left of a value: property names, destructuring patterns, and parameter lists with
their type parameters and annotations.
-/

namespace SliceLint.Source

open Recogniser

/-! ## Annotations -/

/-- A type after a colon. -/
def typeMark (go : Grammar) (m : Mode) : Recogniser :=
  node "type_annotation" (chain [token ":", go .typeExpression m])

/-- A value after an equals sign. -/
def initializer (go : Grammar) (m : Mode) : Recogniser :=
  chain [token "=", role "value" (go .expression m)]

/-- Words that name a type of the language. -/
def isPredefinedType (w : String) : Bool :=
  ["any", "number", "boolean", "string", "symbol", "void", "unknown", "never", "object"].contains w

/-- A name used as a type. -/
def typeName : Recogniser :=
  word "type_identifier" fun w =>
    !isPredefinedType w && !(["typeof", "this", "import", "new"].contains w)

/-- Type arguments between angle brackets. -/
def typeArguments (go : Grammar) (m : Mode) : Recogniser :=
  node "type_arguments"
    (chain [token "<", commaList1 (go .typeExpression m.inner), token ">"])

/-- Type parameters between angle brackets. -/
def typeParameters (go : Grammar) (m : Mode) : Recogniser :=
  let inner := m.inner
  let parameter := node "type_parameter" (chain [
    optional (chain [keyword "const", guardAt fun c => wordAt c != ""]),
    role "name" (name "type_identifier"),
    optional (role "constraint"
      (node "constraint" (chain [keyword "extends", go .typeExpression inner]))),
    optional (role "value"
      (node "default_type" (chain [token "=", go .typeExpression inner])))])
  node "type_parameters" (chain [token "<", commaList1 parameter, token ">"])

/-! ## Property names -/

/-- A name that only the class that declares it sees. -/
def privateName : Recogniser :=
  leafOf "private_property_identifier" true fun cs =>
    match cs with
    | '#' :: rest => (wordLength? rest).map (· + 1)
    | _ => none

/-- The name of a property: a word, a string, a number, or an expression in brackets. -/
def propertyName (go : Grammar) (m : Mode) : Recogniser :=
  branchAt fun c =>
    match c.token.head with
    | '[' => node "computed_property_name" (chain [token "[", go .expression m.inner, token "]"])
    | '"' | '\'' => stringLiteral
    | '#' => privateName
    | ch => if ch.isDigit || ch == '.' then number else name "property_identifier"

/-! ## Patterns -/

/-- A value for what the destructured value lacks. -/
def withDefault (go : Grammar) (m : Mode) (kind : String) (p : Recogniser)
    (h : isPartKind true kind := by exact Eq.refl true) : Recogniser := fun c =>
  andThen (p c) fun ts d =>
    if d.token.head == '=' then
      andThen (chain [token "=", role "right" (go .expression m.inner)] d) fun us =>
        give (gather kind (inRoles "left" ts ++ us) h)
    else give ts d

def restPattern (go : Grammar) (m : Mode) : Recogniser :=
  node "rest_pattern" (chain [token "...", go .pattern m.inner])

/-- A pattern that takes an object apart. -/
def objectPattern (go : Grammar) (m : Mode) : Recogniser :=
  let inner := m.inner
  let pair := node "pair_pattern" (chain [
    role "key" (propertyName go m), token ":",
    role "value" (withDefault go m "assignment_pattern" (go .pattern inner))])
  let shorthand := withDefault go m "object_assignment_pattern" (choice [
    name "shorthand_property_identifier_pattern", branchAt fun c =>
      if nextIn ['\x7b', '['] c then go .pattern inner else refuse])
  node "object_pattern" (chain [
    lbrace, commaList (choice [restPattern go m, pair, shorthand]), rbrace])

/-- A pattern that takes an array apart. -/
def arrayPattern (go : Grammar) (m : Mode) : Recogniser :=
  node "array_pattern" (chain [
    token "[",
    commaList (choice [
      restPattern go m, withDefault go m "assignment_pattern" (go .pattern m.inner)]),
    token "]"])

/-- A pattern without names of its own: an object or an array taken apart. -/
def destructuring (go : Grammar) (m : Mode) : Recogniser :=
  branchAt fun c =>
    match c.token.head with
    | '\x7b' => objectPattern go m
    | '[' => arrayPattern go m
    | _ => refuse

/-! ## Parameters -/

/-- A decorator: a name, a chain of names, a call of one, or any expression in parentheses. -/
def decorator (go : Grammar) (m : Mode) : Recogniser :=
  let arguments := node "arguments" (chain [
    token "(", commaList (choice [
      node "spread_element" (chain [token "...", go .expression m.inner]),
      go .expression m.inner]), token ")"])
  let rec links : Nat → List Part → Recogniser
    | 0, ts => give ts
    | n + 1, ts => fun c =>
      match c.token.head with
      | '.' =>
        andThen (chain [token ".", role "property" (name "property_identifier")] c) fun us d =>
          links n (gather "member_expression" (ts ++ us)) d
      | _ => give ts c
  let called : Recogniser := fun c =>
    andThen (identifier c) fun ts d =>
      andThen (links d.limit ts d) fun ts e =>
        if nextIn ['(', '<'] e then
          extend ts
            (chain [optional (role "type_arguments" (typeArguments go m)),
              role "arguments" arguments])
            (fun us => give (gather "call_expression" (ts ++ us))) e
        else give ts e
  node "decorator" (chain [
    token "@",
    choice [
      node "parenthesized_expression" (chain [token "(", go .expression m.inner, token ")"]),
      called]])

/-- A word used as a modifier: another name, or a pattern, must follow it. -/
def modifier (w : String) (follows : Cursor → Bool) : Recogniser :=
  chain [keyword w, guardAt follows]

/-- A name, a string, a bracket or the like comes next. -/
def nameFollows (c : Cursor) : Bool :=
  let ch := c.token.head
  isNameStart ch || ch == '[' || ch == '"' || ch == '\'' || ch == '#' || ch.isDigit || ch == '*' ||
    ch == '\\'

/-- One parameter of a function. -/
def parameter (go : Grammar) (m : Mode) : Recogniser :=
  let inner := m.inner
  let follows (c : Cursor) : Bool := isNameStart c.token.head || nextIn ['\x7b', '[', '.'] c
  let access := node "accessibility_modifier" (choice [
    keyword "public", keyword "private", keyword "protected"])
  let lead : List Recogniser := [
    many (role "decorator" (decorator go m)),
    optional (chain [access, guardAt follows]),
    optional (modifier "override" follows),
    optional (modifier "readonly" follows),
    role "pattern" (choice [constant "this", restPattern go m, go .pattern inner])]
  let tail : List Recogniser := [
    optional (role "type" (typeMark go inner)), optional (initializer go inner)]
  choice [
    node "required_parameter" (chain (lead ++ [guardAt fun c => c.token.head != '?'] ++ tail)),
    node "optional_parameter" (chain (lead ++ [token "?"] ++ tail))]

/-- The parameter list of a function. -/
def parameters (go : Grammar) (m : Mode) : Recogniser :=
  node "formal_parameters" (chain [
    token "(", optional (commaList1 (parameter go m)), token ")"])

/-- A name, or `this`, whose type a signature narrows. -/
def typePredicate (go : Grammar) (m : Mode) : Recogniser :=
  node "type_predicate" (chain [
    role "name" (choice [constant "this", name "identifier"]), keyword "is",
    role "type" (go .typeExpression m)])

/-- What a function of type `asserts …` checks. -/
def asserts (go : Grammar) (m : Mode) : Recogniser :=
  node "asserts" (chain [
    keyword "asserts",
    choice [typePredicate go m, constant "this", name "identifier"]])

/-- The type of a result, after a colon. -/
def resultMark (go : Grammar) (m : Mode) : Recogniser :=
  choice [
    node "asserts_annotation" (chain [token ":", asserts go m]),
    node "type_predicate_annotation" (chain [token ":", typePredicate go m]),
    typeMark go m]

/-- Type parameters, parameters and the type of the result. -/
def signature (go : Grammar) (m : Mode) : Recogniser :=
  chain [
    branchAt fun c =>
      if c.token.head == '<' then role "type_parameters" (typeParameters go m) else done,
    role "parameters" (parameters go m),
    branchAt fun c =>
      if c.token.head == ':' then role "return_type" (resultMark go m) else done]

end SliceLint.Source
