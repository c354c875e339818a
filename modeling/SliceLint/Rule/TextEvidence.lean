import SliceLint.Text.Lines
import SliceLint.Text.Word

/-!
# Evidence in source texts

Some rules look for forms of words in the text of a file, whatever the syntax around them: type
contracts, exported functions, and test cases.

A form is tried at every place of a text. It is told whether the character before that place is
a word character, because some forms start at a word boundary.
-/

namespace SliceLint.TextEvidence

open Text

/-- What follows a word that the text starts with. -/
def after? (w : String) (cs : List Char) : Option (List Char) :=
  if w.toList.isPrefixOf cs then some (cs.drop w.length) else none

/-- What follows white space, of which there is some. -/
def afterSpaces? (cs : List Char) : Option (List Char) :=
  if isSpace (cs.headD 'x') then some (cs.dropWhile isSpace) else none

/-- What follows a word of word characters. -/
def afterWord? (cs : List Char) : Option (List Char) :=
  if isWordChar (cs.headD ' ') then some (cs.dropWhile isWordChar) else none

/-- No word character comes next. -/
def atWordEnd (cs : List Char) : Bool := !isWordChar (cs.headD ' ')

/-- A form occurs at some place; the first argument tells whether a word character comes before. -/
def occursFrom (form : Bool → List Char → Bool) : Bool → List Char → Bool
  | inWord, [] => form inWord []
  | inWord, c :: cs => form inWord (c :: cs) || occursFrom form (isWordChar c) cs

/-- A form occurs in a text. -/
def occursIn (form : Bool → List Char → Bool) (cs : List Char) : Bool := occursFrom form false cs

/-- A form that starts at a word boundary. -/
def bounded (form : List Char → Bool) (inWord : Bool) (cs : List Char) : Bool := !inWord && form cs

/-! ## Contracts -/

/-- An interface is declared. -/
def interfaceForm (cs : List Char) : Bool :=
  (((after? "interface" cs).bind afterSpaces?).bind afterWord?).isSome

/-- A type is given a name. -/
def typeAliasForm (cs : List Char) : Bool :=
  match ((after? "type" cs).bind afterSpaces?).bind afterWord? with
  | none => false
  | some rest =>
    match rest.dropWhile isSpace with
    | '=' :: _ => true
    | '<' :: args =>
      match args.dropWhile (· != '>') with
      | _ :: more => (more.dropWhile isSpace).head? == some '='
      | [] => false
    | _ => false

def isQuote (c : Char) : Bool := c == '\'' || c == '"'

/-- A quoted text starts here that names a schema library or a schema. -/
def namesSchema (cs : List Char) : Bool :=
  match cs with
  | q :: rest =>
    let inside := rest.takeWhile fun c => !isQuote c
    isQuote q && inside.length < rest.length &&
      ["zod", "yup", "joi", "valibot", "schema", "Schema"].any fun w => occurs w.toList inside
  | [] => false

/-- A schema is quoted before the end of the line. -/
def schemaOnLine : List Char → Bool
  | [] => false
  | c :: cs => if c == '\n' then false else namesSchema (c :: cs) || schemaOnLine cs

/-- An import at the start of a line quotes a schema; the first argument tells whether a line
starts here. -/
def schemaImport : Bool → List Char → Bool
  | _, [] => false
  | atStart, c :: cs =>
    let here := match after? "import" ((c :: cs).dropWhile isSpace) with
      | some rest => atWordEnd rest && schemaOnLine rest
      | none => false
    (atStart && here) || schemaImport (c == '\n') cs

/-- The word `from` occurs before the end of the line; the first argument tells whether a word
character comes before. -/
def fromOnLine : Bool → List Char → Bool
  | _, [] => false
  | inWord, c :: cs =>
    if c == '\n' then false
    else
      (!inWord && (match after? "from" (c :: cs) with
        | some rest => atWordEnd rest
        | none => false)) || fromOnLine (isWordChar c) cs

/-- A marked type occurs before the closing brace. -/
def typeInBraces : Bool → List Char → Bool
  | _, [] => false
  | inWord, c :: cs =>
    (!inWord && (((after? "type" (c :: cs)).bind afterSpaces?).bind afterWord?).isSome) ||
      (c != '\x7d' && typeInBraces (isWordChar c) cs)

/-- Types are imported, by a statement for types or by marked names. -/
def typeImportForm (cs : List Char) : Bool :=
  match after? "import" cs with
  | none => false
  | some rest =>
    let whole := match (afterSpaces? rest).bind (after? "type") with
      | some more => atWordEnd more && fromOnLine true more
      | none => false
    let marked := match rest.dropWhile isSpace with
      | '\x7b' :: more => typeInBraces false more
      | _ => false
    whole || marked

/-- A form of type contract. -/
inductive Contract where
  | interface
  | typeAlias
  | schemaImport
  | typeImport
deriving DecidableEq, Repr

namespace Contract

def all : List Contract := [interface, typeAlias, schemaImport, typeImport]

def name : Contract → String
  | interface => "interface"
  | typeAlias => "type_alias"
  | schemaImport => "schema_import"
  | typeImport => "type_import"

/-- The form occurs in a text. -/
def occursIn (c : Contract) (cs : List Char) : Bool :=
  match c with
  | interface => TextEvidence.occursIn (bounded interfaceForm) cs
  | typeAlias => TextEvidence.occursIn (bounded typeAliasForm) cs
  | schemaImport => TextEvidence.schemaImport true cs
  | typeImport => TextEvidence.occursIn (bounded typeImportForm) cs

end Contract

/-- The forms of contract that occur in a text. -/
def contracts (text : String) : List Contract := Contract.all.filter (·.occursIn text.toList)

/-! ## Functions and tests -/

/-- A function, or a constant, is exported. -/
def exportForm (cs : List Char) : Bool :=
  match (after? "export" cs).bind afterSpaces? with
  | none => false
  | some rest =>
    (after? "function" rest).isSome ||
      (match ((after? "const" rest).bind afterSpaces?).bind afterWord? with
        | some more => (more.dropWhile isSpace).head? == some '='
        | none => false) ||
      (match rest with
        | '\x7b' :: more => occurs "function".toList (more.takeWhile (· != '\x7d'))
        | _ => false)

/-- A function is exported, as far as the text tells. -/
def exportsFunction (text : String) : Bool := occursIn (fun _ cs => exportForm cs) text.toList

/-- A test case is declared. -/
def testForm (cs : List Char) : Bool :=
  let call (rest : List Char) : Bool := (rest.dropWhile isSpace).head? == some '('
  let tail (rest : List Char) : Bool :=
    call rest ||
      match rest with
      | '.' :: more => (afterWord? more).any call
      | _ => false
  (after? "it" cs).any tail || (after? "test" cs).any tail

/-- A text declares a test case. -/
def hasTestCase (text : String) : Bool := occursIn (bounded testForm) text.toList

end SliceLint.TextEvidence
