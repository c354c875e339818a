import SliceLint.Source.Binding

/-!
# Markup elements

Elements, their attributes and their children, as expressions of the markup dialect. The names of
the opening and the closing tag need not agree.
-/

namespace SliceLint.Source

open Recogniser

/-- The length of a markup name: a word, in which hyphens may stand if it is ASCII. -/
def markupNameLength? (cs : List Char) : Option Nat :=
  let isPart (c : Char) : Bool := c.isAlphanum || c == '_' || c == '$' || c == '-'
  let n := if isNameStart (cs.headD ' ') then (cs.takeWhile isPart).length else 0
  match wordLength? cs with
  | none => none
  | some k => some (max n k)

def markupName (kind : String) (h : isPartKind true kind := by exact Eq.refl true) : Recogniser :=
  leafOf kind true markupNameLength? h

/-- A name with a namespace. -/
def namespacedName : Recogniser :=
  spanning "jsx_namespace_name"
    (chain [markupName "identifier", token ":", markupName "identifier"])

/-- The name of an element: a name, a namespaced name, or a path of names. -/
def elementName : Recogniser :=
  let rec links : Nat → List Part → Recogniser
    | 0, ts => give ts
    | n + 1, ts => fun c =>
      if c.token.head == '.' then
        andThen (chain [token ".", role "property" (name "property_identifier")] c) fun us d =>
          links n (gather "member_expression" (ts ++ us)) d
      else give ts c
  choice [
    namespacedName,
    fun c => andThen ((markupName "identifier") c) fun ts d => links d.limit ts d]

/-- An expression, a spread, or nothing, in braces. -/
def markupExpression (go : Grammar) (m : Mode) : Recogniser :=
  let inner := m.inner
  node "jsx_expression" (chain [
    lbrace,
    optional (choice [
      node "spread_element" (chain [token "...", go .expression inner]),
      go .sequence inner]),
    rbrace])

/-- One attribute of an opening tag. -/
def markupAttribute (go : Grammar) (m : Mode) : Recogniser :=
  let value := branchAt fun c =>
    match c.token.head with
    | '"' => attributeText '"'
    | '\'' => attributeText '\''
    | '\x7b' => markupExpression go m
    | _ => go .element m
  branchAt fun c =>
    if c.token.head == '\x7b' then markupExpression go m
    else
      node "jsx_attribute" (chain [
        choice [namespacedName, markupName "property_identifier"],
        optional (chain [token "=", value])])

/-- The length of a stretch of text between tags; a line end with the blanks after it is not
text by itself. -/
def markupTextLength? (cs : List Char) : Option Nat :=
  let text := cs.takeWhile fun c => !(['<', '>', '\x7b', '\x7d', '&'].contains c)
  let rec seen : Bool → List Char → Bool
    | _, [] => false
    | atLine, c :: rest =>
      if c == '\n' then seen true rest
      else if atLine && isBlank c then seen true rest
      else true
  if seen false text then some text.length else none

/-- One child of an element. -/
def markupChild (go : Grammar) (m : Mode) : Recogniser := fun c =>
  let d := c.skipBlanks
  let other : Reading Outcome :=
    match d.rest with
    | '<' :: '/' :: _ => pure ⟨d.index, none⟩
    | '<' :: _ => go .element m d
    | '\x7b' :: _ => markupExpression go m d
    | '&' :: _ => (immediate "html_character_reference" true referenceLength?) d
    | _ => pure ⟨d.index, none⟩
  orElse ((immediate "jsx_text" true markupTextLength?) c) give other

/-- An element with its children, or an empty one. -/
def element (go : Grammar) (m : Mode) : Recogniser :=
  let tag := chain [
    role "name" elementName,
    branchAt fun c =>
      if c.token.head == '<' then role "type_arguments" (typeArguments go m) else done,
    many (role "attribute" (markupAttribute go m))]
  let closing := node "jsx_closing_element" (chain [
    token "</", optional (role "name" elementName), token ">"])
  fun c =>
    let start := chain [token "<", branchAt fun c => if c.token.head == '>' then done else tag] c
    andThen start fun ts e =>
      if e.token.head == '/' then
        andThen (token "/>" e) fun us => give (gather "jsx_self_closing_element" (ts ++ us))
      else
        andThen (token ">" e) fun us f =>
          let opening := inRoles "open_tag" (gather "jsx_opening_element" (ts ++ us))
          andThen (chain [many (markupChild go m), role "close_tag" closing] f) fun vs =>
            give (gather "jsx_element" (opening ++ vs))

end SliceLint.Source
