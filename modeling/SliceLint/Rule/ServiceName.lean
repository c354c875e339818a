import SliceLint.Source.Imports
import SliceLint.Text.Case
import SliceLint.Text.Lines

/-!
# Names of services and clients

Which binding of an import names a service or a client, and the hook that gives access to it.

**Camel case.** A name is cut at hyphens, underscores, points and white space, and the words after
the first are capitalised.

**Accessors.** `use`, followed by the name in camel case with its first letter capitalised; a
trailing `service`, in whatever case, is spelled `Service`.
-/

namespace SliceLint.ServiceName

open Text

/-- The words of a name. -/
def wordsFrom (current : List Char) : List Char → List (List Char)
  | [] => if current.isEmpty then [] else [current.reverse]
  | c :: rest =>
    if c == '-' || c == '_' || c == '.' || isSpace c then
      if current.isEmpty then wordsFrom [] rest else current.reverse :: wordsFrom [] rest
    else wordsFrom (c :: current) rest

/-- A name in camel case. -/
def camelCaseList (cs : List Char) : List Char :=
  match wordsFrom [] cs with
  | [] => []
  | first :: rest => first ++ rest.flatMap capitalize

def camelCase (name : String) : String := String.ofList (camelCaseList name.toList)

/-- The letters that count as the letter `s` or `i` when case is ignored, and the letters that
count as any other. -/
def sameLetter (pattern c : Char) : Bool :=
  c == pattern || c == pattern.toUpper ||
    (pattern == 's' && c == 'ſ') || (pattern == 'i' && (c == 'İ' || c == 'ı'))

/-- The text ends with `service` in whatever case. -/
def endsWithService (cs : List Char) : Bool :=
  let tail := cs.drop (cs.length - 7)
  tail.length == 7 && (tail.zip "service".toList).all fun (c, p) => sameLetter p c

/-- Spell a trailing `service` with one capital. -/
def spellService (cs : List Char) : List Char :=
  if endsWithService cs then cs.take (cs.length - 7) ++ "Service".toList else cs

/-- The hook that gives access to what a name stands for. -/
def accessor (name : String) : String :=
  String.ofList ("use".toList ++ capitalize (spellService (camelCaseList name.toList)))

/-- A keyword of ASCII letters occurs in a name, in whatever case. -/
def mentions (keyword name : String) : Bool :=
  occurs keyword.toList (name.toList.map Char.toLower)

/-- The name to report for an import: the first binding that is no hook and mentions the keyword;
if none does but the last segment of the path does, the first binding that is no hook, or the
segment where nothing is bound. -/
def flagged? (bindings : List String) (segment keyword : String) : Option String :=
  let concrete := bindings.filter fun b => !isHookName b
  match concrete.find? (mentions keyword) with
  | some name => some name
  | none =>
    if mentions keyword segment then
      match concrete with
      | name :: _ => some name
      | [] => if bindings.isEmpty then some (camelCase segment) else none
    else none

end SliceLint.ServiceName
