import SliceLint.Rule.Basic
import SliceLint.Rule.StyleValue

/-!
# Literal values in styles

Colours, lengths and layers written as literals in a style are to be design tokens. Two kinds of
objects are styles: the object of a `style` attribute, and an object passed to a call. Only string
literals are looked at; what is computed passes.
-/

namespace SliceLint.LiteralStyle

open StyleValue

def info : RuleInfo where
  id := "no-literal-style-values"
  description := "Enforce design tokens instead of literal color, spacing, and other design values"
  severity := .error
  messages := [
    ("literalColor",
      [.text "Replace literal color \"", .gap "value", .text "\" with theme.colors.* token"]),
    ("literalSpacing",
      [.text "Replace literal spacing \"", .gap "value", .text "\" with theme.spacing[*] token"]),
    ("literalTypography",
      [.text "Replace literal font-size \"", .gap "value",
        .text "\" with theme.typography.fontSize.* token"]),
    ("literalBorderRadius",
      [.text "Replace literal border-radius \"", .gap "value",
        .text "\" with theme.borderRadius.* token"]),
    ("literalZIndex",
      [.text "Replace literal z-index \"", .gap "value", .text "\" with theme.zIndex[*] token"])]
  severities := []

/-- The name of a property, unless it is computed. -/
def propertyName? (key : Tree) : Option String :=
  if key.kind == "property_identifier" || key.kind == "identifier" then some key.lexeme
  else if key.kind == "string" then some key.unquoted
  else none

/-- The name and the literal text of a property that is open to judgement. -/
def literalPair? (member : Tree) : Option (String × String) :=
  if member.kind != "pair" then none
  else
    match (member.childInRole? "key").bind propertyName?, member.childInRole? "value" with
    | some property, some v =>
      if v.kind != "string" || v.unquoted == "" || isExempt v.unquoted then none
      else some (property, v.unquoted)
    | _, _ => none

/-- One finding for each family that a member of a style belongs to. -/
def checkMember (member : Tree) : List Finding :=
  match literalPair? member with
  | none => []
  | some (property, value) =>
    (Family.all.filter fun f => f.covers property value).map fun f =>
      ⟨f.messageId, member.start, property ++ ": " ++ f.token, [("value", .text value)]⟩

/-- The findings in a style. -/
def checkStyle (style : Tree) : List Finding := style.namedChildren.flatMap checkMember

/-- The object that a `style` attribute holds. -/
def styleOf? (holder : Tree) : Option Tree :=
  match holder.namedChildren with
  | [] => none
  | first :: rest =>
    if first.lexeme != "style" then none
    else
      (rest.find? fun c => c.kind == "jsx_expression").bind fun expression =>
        expression.namedChildren.head?.bind fun inner =>
          if inner.kind == "object" then some inner else none

/-- The object is an argument of a call. -/
def isArgument (v : Visit) : Bool :=
  match v.ancestors with
  | parent :: call :: _ => parent.kind == "arguments" && call.kind == "call_expression"
  | _ => false

/-- The style that a node holds or is. -/
def style? (v : Visit) : Option Tree :=
  if v.node.kind == "jsx_attribute" then styleOf? v.node
  else if isArgument v then some v.node
  else none

/-- Literal values in styles are reported. -/
def rule : Rule :=
  .ofNodes info ["jsx_attribute", "object"] fun v _ =>
    match style? v with
    | some style => checkStyle style
    | none => []

end SliceLint.LiteralStyle
