import SliceLint.Source.TypeExpression
import SliceLint.Source.Markup

/-!
# Expressions

Operands with their suffixes, binary operators by precedence, conditional expressions and
assignments. An arrow function, an assignment or a `yield` may stand wherever an operand may.
-/

namespace SliceLint.Source

open Recogniser

/-! ## Functions and classes -/

/-- The body of a function. -/
def body (go : Grammar) (m : Mode) : Recogniser := role "body" (go .block m)

/-- A function expression. -/
def functionExpression (go : Grammar) (m : Mode) : Recogniser :=
  let inner := m.inner
  let lead := [optional (keyword "async"), keyword "function"]
  let tail := [
    optional (role "name" (name "identifier")), signature go inner, body go m]
  choice [
    node "function_expression" (chain (lead ++ tail)),
    node "generator_function" (chain (lead ++ [token "*"] ++ tail))]

/-- An arrow function. -/
def arrowFunction (go : Grammar) (m : Mode) : Recogniser :=
  let inner := m.inner
  let untyped := chain [
    optional (role "type_parameters" (typeParameters go inner)),
    role "parameters" (parameters go inner)]
  let head := branchAt fun c =>
    if nextIn ['(', '<'] c then
      if m.typed then choice [chain [signature go inner, ahead (token "=>")], untyped]
      else untyped
    else role "parameter" (name "identifier")
  node "arrow_function" (chain [
    optional (chain [keyword "async", guardAt fun c => c.token.head != '=']), head, token "=>",
    role "body" (choice [
      branchAt fun c => if c.token.head == '\x7b' then go .block m else refuse,
      go .expression m])])

/-- Types that a class extends, and those it implements. -/
def heritage (go : Grammar) (m : Mode) : Recogniser :=
  let inner := m.inner
  let implementsClause := node "implements_clause" (chain [
    keyword "implements", separated (token ",") (go .typeExpression inner)])
  let base := chain [
    role "value" (go .operand { inner with typed := false }),
    optional (role "type_arguments" (typeArguments go inner))]
  let extendsClause := node "extends_clause" (chain [
    keyword "extends", separated (token ",") base])
  branchAt fun c =>
    match wordAt c with
    | "extends" => node "class_heritage" (chain [extendsClause, optional implementsClause])
    | "implements" => node "class_heritage" implementsClause
    | _ => done

/-- A method with a body. -/
def methodDefinition (go : Grammar) (m : Mode) : Recogniser :=
  node "method_definition" (chain [
    memberModifiers, methodModifiers, role "name" (propertyName go m), optional (token "?"),
    signature go m.inner, body go m])

/-- A field of a class. -/
def fieldDefinition (go : Grammar) (m : Mode) : Recogniser :=
  let inside := m.top
  let flag (w : String) : Recogniser := optional (modifier w nameFollows)
  node "public_field_definition" (chain [
    flag "declare",
    optional (chain [node "accessibility_modifier" (choice [
      keyword "public", keyword "private", keyword "protected"]), guardAt nameFollows]),
    flag "declare", flag "static", optional (node "override_modifier" (modifier "override" nameFollows)),
    flag "abstract", flag "readonly", flag "abstract", flag "accessor",
    role "name" (propertyName go m), optional (choice [token "?", token "!"]),
    optional (role "type" (typeMark go inside)), optional (initializer go inside)])

/-- A method that a subclass has to define. -/
def abstractMethod (go : Grammar) (m : Mode) : Recogniser :=
  node "abstract_method_signature" (chain [
    optional (chain [node "accessibility_modifier" (choice [
      keyword "public", keyword "private", keyword "protected"]), guardAt nameFollows]),
    modifier "abstract" nameFollows, memberModifiers, methodModifiers,
    role "name" (propertyName go m), optional (token "?"), signature go m.top])

/-- The members of a class. -/
def classBody (go : Grammar) (m : Mode) : Recogniser :=
  let inside := m.top
  let ends : Recogniser := fun c =>
    if c.statementEnds true then done c else choice [token ";", token ","] c
  let signatureEnd : Recogniser := fun c =>
    if c.signatureEnds then done c else choice [token ";", token ","] c
  let staticBlock := node "class_static_block" (chain [keyword "static", body go m])
  let member := branchAt fun c =>
    match c.token.head with
    | ';' => token ";"
    | '@' => decorator go m
    | _ => choice [
        staticBlock,
        methodDefinition go m,
        chain [abstractMethod go m, signatureEnd],
        chain [methodSignature go inside, signatureEnd],
        chain [indexSignature go inside, ends],
        chain [fieldDefinition go m, ends]]
  node "class_body" (chain [lbrace, many member, rbrace])

/-- A class used as a value. -/
def classExpression (go : Grammar) (m : Mode) : Recogniser :=
  node "class" (chain [
    many (role "decorator" (decorator go m)), keyword "class",
    optional (chain [
      guardAt fun c => !(["extends", "implements"].contains (wordAt c)),
      role "name" (name "type_identifier")]),
    optional (role "type_parameters" (typeParameters go m.inner)),
    heritage go m, role "body" (classBody go m)])

/-! ## Objects, arrays and calls -/

def spread (go : Grammar) (m : Mode) : Recogniser :=
  node "spread_element" (chain [token "...", go .expression m.inner])

/-- An object literal. -/
def object (go : Grammar) (m : Mode) : Recogniser :=
  let pair := node "pair" (chain [
    role "key" (propertyName go m), token ":", role "value" (go .expression m.inner)])
  let shorthand := chain [
    name "shorthand_property_identifier", guardAt (nextIn [',', '\x7d'])]
  let member := branchAt fun c =>
    if c.token.head == '.' then choice [spread go m, pair]
    else choice [pair, shorthand, methodDefinition go m]
  node "object" (chain [lbrace, commaList member, rbrace])

/-- An array literal. -/
def array (go : Grammar) (m : Mode) : Recogniser :=
  node "array" (chain [
    token "[", commaList (choice [spread go m, go .expression m.inner]), token "]"])

/-- The arguments of a call. -/
def arguments (go : Grammar) (m : Mode) : Recogniser :=
  node "arguments" (chain [
    token "(", commaList (choice [spread go m, go .expression m.inner]), token ")"])

/-- An expression in parentheses, possibly with its type. -/
def parenthesized (go : Grammar) (m : Mode) : Recogniser :=
  node "parenthesized_expression" (chain [
    token "(", go .sequence m.inner, optional (role "type" (typeMark go m.inner)), token ")"])

/-! ## Operands -/

/-- A word or an arrow of one follows `async`. -/
def asyncOperand (go : Grammar) (m : Mode) : Recogniser := fun c =>
  let d := (c.token.advance 5)
  let plain := identifier
  if m.lineEnds && d.statementEnds true then plain c
  else
    match wordAt d with
    | "function" => choice [functionExpression go m, plain] c
    | _ => choice [arrowFunction go m, plain] c

/-- An operand without suffixes. -/
def primary (go : Grammar) (m : Mode) : Recogniser := branchAt fun c =>
  match c.token.head with
  | '(' => choice [arrowFunction go m, parenthesized go m]
  | '[' => array go m
  | '\x7b' => object go m
  | '"' => quoted '"'
  | '\'' => quoted '\''
  | '\x60' => template "template_string" "template_substitution" (go .sequence m.inner)
  | '/' => regex
  | '@' => classExpression go m
  | '#' => privateName
  | '<' =>
    if m.markup then choice [go .element m, arrowFunction go m]
    else choice [
      arrowFunction go m,
      node "type_assertion" (chain [typeArguments go m, go .operand m])]
  | ch =>
    if ch.isDigit || ch == '.' then number
    else
      match wordAt c with
      | "this" => constant "this"
      | "super" => constant "super"
      | "true" => constant "true"
      | "false" => constant "false"
      | "null" => constant "null"
      | "undefined" => constant "undefined"
      | "function" => functionExpression go m
      | "class" => classExpression go m
      | "async" => asyncOperand go m
      | "import" =>
        choice [
          node "meta_property" (chain [keyword "import", token ".", keyword "meta"]),
          chain [constant "import", guardAt (nextIn ['(', '.'])]]
      | "namespace" =>
        choice [
          node "internal_module" (chain [
            keyword "namespace", role "name" (name "identifier"), body go m]),
          identifier]
      | w =>
        if w == "" then refuse
        else if ['=', '>'].isPrefixOf (c.token.advance w.length).token.rest then arrowFunction go m
        else identifier

/-- The point before a name, or its optional form. -/
def link : Recogniser := choice [
  token ".",
  leafOf "optional_chain" true fun cs =>
    match cs with
    | '?' :: '.' :: rest => if (rest.headD ' ').isDigit then none else some 2
    | _ => none]

/-- Suffixes of an operand: properties, indices, calls, templates and assertions. With `calls`
off, as after `new`, only properties and indices. -/
def suffixes (go : Grammar) (m : Mode) (calls : Bool) : Nat → List Part → Recogniser
  | 0, ts => give ts
  | n + 1, ts => fun c =>
    let stop : Reading Outcome := pure ⟨c.token.index, some (ts, c)⟩
    if m.lineEnds && c.statementEnds true then stop
    else
      let onward (kind : String) (first : List Part → List Part) (p : Recogniser)
          (otherwise : Reading Outcome) (h : isPartKind true kind := by exact Eq.refl true) :
          Reading Outcome :=
        orElse (p c) (fun us => suffixes go m calls n (gather kind (first ts ++ us) h)) otherwise
      let property := role "property" (choice [privateName, name "property_identifier"])
      let index := chain [token "[", role "index" (go .sequence m.inner), token "]"]
      let call := role "arguments" (arguments go m)
      match c.token.rest with
      | '.' :: _ => onward "member_expression" (inRoles "object") (chain [link, property]) stop
      | '[' :: _ => onward "subscript_expression" (inRoles "object") index stop
      | '?' :: '.' :: _ =>
        onward "member_expression" (inRoles "object") (chain [link, property]) <|
          onward "subscript_expression" (inRoles "object") (chain [link, index]) <|
            if calls then
              onward "call_expression" (inRoles "function")
                (chain [link, optional (role "type_arguments" (typeArguments go m)), call])
                stop
            else stop
      | '(' :: _ =>
        if calls then onward "call_expression" (inRoles "function") call stop else stop
      | '\x60' :: _ =>
        if calls then
          onward "call_expression" (inRoles "function")
            (role "arguments"
              (template "template_string" "template_substitution" (go .sequence m.inner)))
            stop
        else stop
      | '!' :: '=' :: _ => stop
      | '!' :: _ => onward "non_null_expression" id (token "!") stop
      | '<' :: _ =>
        if !calls then stop
        else
          onward "call_expression" (inRoles "function")
            (chain [role "type_arguments" (typeArguments go m), choice [call,
              role "arguments"
                (template "template_string" "template_substitution" (go .sequence m.inner))]])
            <|
              if !m.typed then stop
              else
                onward "instantiation_expression" id
                  (chain [role "type_arguments" (typeArguments go m), guardAt fun d =>
                    let e := d.token
                    !(isNameStart e.head || e.head.isDigit ||
                      ['(', '[', '\x7b', '"', '\'', '<', '+', '-', '!', '~', '/'].contains e.head) ||
                    (m.lineEnds && d.statementEnds true)])
                  stop
      | _ => stop

/-- Operators that change a variable. -/
def assignmentOperator? (cs : List Char) : Option String :=
  ["+=", "-=", "*=", "/=", "%=", "^=", "&=", "|=", ">>=", ">>>=", "<<=", "**=", "&&=", "||=",
    "??="].find? fun s => s.toList.isPrefixOf cs

/-- The expressions that may be assigned to. -/
def isAssignable (t : Part) : Bool :=
  ["identifier", "member_expression", "subscript_expression", "parenthesized_expression",
    "non_null_expression", "undefined"].contains t.kind

/-- What may follow a suffixed operand: an update, or an assignment. -/
def changed (go : Grammar) (m : Mode) (ts : List Part) : Recogniser := fun c =>
  let update (sign : String) : Reading Outcome :=
    andThen (role "operator" (token sign) c) fun us =>
      give (gather "update_expression" (inRoles "argument" ts ++ us))
  let assignment (kind : String) (sign : Recogniser)
      (h : isPartKind true kind := by exact Eq.refl true) : Reading Outcome :=
    andThen (chain [sign, role "right" (go .expression m)] c) fun us =>
      give (gather kind (inRoles "left" ts ++ us) h)
  if m.lineEnds && c.statementEnds true then give ts c
  else
    match c.token.rest with
    | '+' :: '+' :: _ => update "++"
    | '-' :: '-' :: _ => update "--"
    | rest =>
      if !(ts.getLast?.map isAssignable).getD false then give ts c
      else
        match rest with
        | '=' :: '=' :: _ | '=' :: '>' :: _ => give ts c
        | '=' :: _ => assignment "assignment_expression" (token "=")
        | _ =>
          match assignmentOperator? rest with
          | some s => assignment "augmented_assignment_expression" (role "operator" (token s))
          | none => give ts c

/-- An operand with its suffixes. -/
def suffixed (go : Grammar) (m : Mode) : Recogniser := fun c =>
  andThen (primary go m c) fun ts d =>
    if (ts.getLast?.map Part.kind) == some "arrow_function" then give ts d
    else andThen (suffixes go m true d.limit ts d) fun ts => changed go m ts

/-- An object made by `new`, with its suffixes. -/
def newExpression (go : Grammar) (m : Mode) : Recogniser := fun c =>
  let target := node "meta_property" (chain [keyword "new", token ".", keyword "target"])
  let callee : Recogniser := fun c =>
    let p := if wordAt c == "new" then go .operand { m with lineEnds := false } else primary go m
    andThen (p c) fun ts d => suffixes go m false d.limit ts d
  let made := node "new_expression" (chain [
    keyword "new", role "constructor" callee,
    optional (chain [
      role "type_arguments" (typeArguments go m),
      guardAt fun d => !(isNameStart d.token.head)]),
    optional (chain [
      guardAt fun d => !(m.lineEnds && d.statementEnds true),
      role "arguments" (arguments go m)])])
  andThen (choice [target, made, identifier] c) fun ts d =>
    andThen (suffixes go m true d.limit ts d) fun ts => changed go m ts

/-- An operand: prefixed by operators, or suffixed. -/
def operand (go : Grammar) (m : Mode) : Recogniser :=
  let unary (s : String) : Recogniser :=
    node "unary_expression" (chain [
      role "operator" (if (s.toList.headD ' ').isAlpha then keyword s else token s),
      role "argument" (go .operand m)])
  let update (s : String) : Recogniser :=
    node "update_expression" (chain [
      role "operator" (token s), role "argument" (go .operand m)])
  branchAt fun c =>
    match c.token.rest with
    | '+' :: '+' :: _ => update "++"
    | '-' :: '-' :: _ => update "--"
    | '+' :: _ => unary "+"
    | '-' :: _ => unary "-"
    | '!' :: _ => unary "!"
    | '~' :: _ => unary "~"
    | _ =>
      match wordAt c with
      | "typeof" => unary "typeof"
      | "void" => unary "void"
      | "delete" => unary "delete"
      | "await" => node "await_expression" (chain [keyword "await", go .operand m])
      | "yield" =>
        node "yield_expression" (choice [
          chain [keyword "yield", token "*", go .expression m],
          chain [keyword "yield", branchAt fun d =>
            if m.lineEnds && d.statementEnds false then done else optional (go .expression m)]])
      | "new" => newExpression go m
      | _ => suffixed go m

/-! ## Operators -/

/-- The binary operator at the front, with its binding strength. -/
def binaryOperator? (inOperator : Bool) (cs : List Char) : Option (String × Nat) :=
  match cs with
  | '?' :: '?' :: '=' :: _ => none
  | '?' :: '?' :: _ => some ("??", 1)
  | '|' :: '|' :: '=' :: _ => none
  | '|' :: '|' :: _ => some ("||", 2)
  | '&' :: '&' :: '=' :: _ => none
  | '&' :: '&' :: _ => some ("&&", 3)
  | '|' :: '=' :: _ | '^' :: '=' :: _ | '&' :: '=' :: _ => none
  | '|' :: _ => some ("|", 4)
  | '^' :: _ => some ("^", 5)
  | '&' :: _ => some ("&", 6)
  | '=' :: '=' :: '=' :: _ => some ("===", 7)
  | '=' :: '=' :: _ => some ("==", 7)
  | '!' :: '=' :: '=' :: _ => some ("!==", 7)
  | '!' :: '=' :: _ => some ("!=", 7)
  | '>' :: '>' :: '>' :: '=' :: _ | '>' :: '>' :: '=' :: _ | '<' :: '<' :: '=' :: _ => none
  | '>' :: '>' :: '>' :: _ => some (">>>", 9)
  | '>' :: '>' :: _ => some (">>", 9)
  | '<' :: '<' :: _ => some ("<<", 9)
  | '>' :: '=' :: _ => some (">=", 8)
  | '<' :: '=' :: _ => some ("<=", 8)
  | '>' :: _ => some (">", 8)
  | '<' :: _ => some ("<", 8)
  | '*' :: '*' :: '=' :: _ | '+' :: '=' :: _ | '-' :: '=' :: _ | '*' :: '=' :: _ => none
  | '/' :: '=' :: _ | '%' :: '=' :: _ => none
  | '+' :: _ => some ("+", 10)
  | '-' :: _ => some ("-", 10)
  | '*' :: '*' :: _ => some ("**", 12)
  | '*' :: _ => some ("*", 11)
  | '/' :: _ => some ("/", 11)
  | '%' :: _ => some ("%", 11)
  | 'i' :: _ =>
    match wordLength? cs with
    | some 2 => if cs.take 2 == ['i', 'n'] && inOperator then some ("in", 8) else none
    | some 10 => if String.ofList (cs.take 10) == "instanceof" then some ("instanceof", 8) else none
    | _ => none
  | 'a' :: 's' :: _ => if wordLength? cs == some 2 then some ("as", 8) else none
  | 's' :: 'a' :: _ =>
    if wordLength? cs == some 9 && String.ofList (cs.take 9) == "satisfies" then
      some ("satisfies", 8)
    else none
  | _ => none

/-- Operators at least as strong as `least`, applied to what was read. -/
def operators (go : Grammar) (m : Mode) : Nat → Nat → List Part → Recogniser
  | 0, _, ts => give ts
  | n + 1, least, ts => fun c =>
    let stop : Reading Outcome := pure ⟨c.token.index, some (ts, c)⟩
    if m.lineEnds && c.statementEnds true then stop
    else
      match binaryOperator? m.inOperator c.token.rest with
      | none => stop
      | some (s, level) =>
        if level < least then stop
        else if s == "as" || s == "satisfies" then
          let asserted (us : List Part) : List Part :=
            if s == "as" then gather "as_expression" (ts ++ us)
            else gather "satisfies_expression" (ts ++ us)
          extend ts
            (chain [keyword s, choice [
              chain [keyword "const", guardAt fun d => d.token.head != '.'],
              go .typeExpression m]])
            (fun us => operators go m n least (asserted us)) c
        else
          let sign := role "operator" <|
            if (s.toList.headD ' ').isAlpha then keyword s
            else leafOf s false (fun _ => some s.length) (Eq.refl true)
          let right : Recogniser := fun d =>
            andThen (go .operand m d) fun us e =>
              andThen (operators go m n (if s == "**" then level else level + 1) us e) fun vs =>
                give (inRoles "right" vs)
          extend ts (chain [sign, right])
            (fun us =>
              operators go m n least (gather "binary_expression" (inRoles "left" ts ++ us))) c

/-- Operands joined by binary operators, and the choice between two values. -/
def conditional (go : Grammar) (m : Mode) : Recogniser := fun c =>
  andThen (go .operand m c) fun ts d =>
    andThen (operators go m d.limit 1 ts d) fun ts e =>
      let question := match e.token.rest with
        | '?' :: '?' :: _ => false
        | '?' :: '.' :: rest => (rest.headD ' ').isDigit
        | '?' :: _ => true
        | _ => false
      if !question || (m.lineEnds && e.statementEnds true) then give ts e
      else
        let inner := m.inner
        let arms (typed : Bool) : Recogniser := chain [
          token "?", role "consequence" (go .expression { inner with typed := typed }),
          token ":", role "alternative" (go .expression m)]
        extend ts (choice [arms true, arms false])
          (fun us => give (gather "ternary_expression" (inRoles "condition" ts ++ us))) e

/-- An expression without a comma outside brackets. The word `using` may lead an assignment and
names nothing here. -/
def expression (go : Grammar) (m : Mode) : Recogniser :=
  let taken := node "assignment_expression" (chain [
    role "left" (destructuring go m), token "=", role "right" (go .expression m)])
  let bound := node "assignment_expression" (chain [
    keyword "using", role "left" (choice [parenthesized go m, go .pattern m]), token "=",
    role "right" (go .expression m)])
  branchAt fun c =>
    if nextIn ['\x7b', '['] c then choice [taken, conditional go m]
    else if wordAt c == "using" then bound
    else conditional go m

/-- One or more expressions between commas. -/
def sequence (go : Grammar) (m : Mode) : Recogniser := fun c =>
  andThen (go .expression m c) fun ts d =>
    if d.token.head == ',' then
      extend ts (chain [token ",", separated (token ",") (go .expression m)])
        (fun us => give (gather "sequence_expression" (ts ++ us))) d
    else give ts d

/-- A pattern: names taken out of a value, or a place to assign to. -/
def pattern (go : Grammar) (m : Mode) : Recogniser :=
  branchAt fun c =>
    match c.token.head with
    | '\x7b' | '[' => destructuring go m
    | '.' => restPattern go m
    | _ => fun c =>
      andThen (primaryPlace c) fun ts d =>
        suffixes go { m with typed := false } true d.limit ts d
where
  /-- The name or the value that a place starts with. -/
  primaryPlace : Recogniser := branchAt fun c =>
    match wordAt c with
    | "this" => constant "this"
    | "super" => constant "super"
    | "undefined" => constant "undefined"
    | _ => identifier

end SliceLint.Source
