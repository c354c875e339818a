/-!
# Lines, blanks and pieces of text

**Lines** (`lines`). A text is cut at every line boundary, not only at newlines: carriage
returns, form feeds, the separators of the control range, and the Unicode line ends. A boundary
at the end of the text starts no further line.

**Blanks** (`isSpace`). White space in the sense of Unicode, with the separators of the control
range.
-/

namespace SliceLint.Text

/-- White space. -/
def isSpace (c : Char) : Bool :=
  c == ' ' || ('\t' ≤ c && c ≤ '\r') || ('\x1c' ≤ c && c ≤ '\x1f') ||
    (c.toNat ≥ 128 &&
      (c == '\u0085' || c == '\u00a0' || c == '\u1680' || ('\u2000' ≤ c && c ≤ '\u200a') ||
        c == '\u2028' || c == '\u2029' || c == '\u202f' || c == '\u205f' || c == '\u3000'))

/-- Characters that end a line. -/
def isLineEnd (c : Char) : Bool :=
  c == '\n' || c == '\r' || c == '\x0b' || c == '\x0c' || ('\x1c' ≤ c && c ≤ '\x1e') ||
    c == '\u0085' || c == '\u2028' || c == '\u2029'

/-- The lines of a text, given the characters of the current line in reverse. -/
def linesFrom (current : List Char) : List Char → List (List Char)
  | [] => if current.isEmpty then [] else [current.reverse]
  | '\r' :: '\n' :: rest => current.reverse :: linesFrom [] rest
  | c :: rest =>
    if isLineEnd c then current.reverse :: linesFrom [] rest else linesFrom (c :: current) rest

/-- The lines of a text, without their ends. -/
def lines (s : String) : List String := (linesFrom [] s.toList).map String.ofList

/-- Drop the characters that meet a condition from both ends. -/
def trimList (p : Char → Bool) (cs : List Char) : List Char :=
  ((cs.dropWhile p).reverse.dropWhile p).reverse

/-- Drop white space from both ends. -/
def strip (s : String) : String := String.ofList (trimList isSpace s.toList)

/-- Drop one character, however often, from both ends. -/
def trim (c : Char) (s : String) : String := String.ofList (trimList (· == c) s.toList)

/-- Cut at every occurrence of a character. -/
def cut (sep : Char) : List Char → List (List Char)
  | [] => [[]]
  | c :: rest =>
    if c = sep then [] :: cut sep rest
    else
      match cut sep rest with
      | [] => [[c]]
      | piece :: pieces => (c :: piece) :: pieces

/-- The first place where one list occurs in another, as the text before and after it. -/
def splitOnce? (needle : List Char) : List Char → Option (List Char × List Char)
  | [] => if needle.isEmpty then some ([], []) else none
  | c :: rest =>
    if needle.isPrefixOf (c :: rest) then some ([], (c :: rest).drop needle.length)
    else (splitOnce? needle rest).map fun (before, after) => (c :: before, after)

/-- One text occurs in another. -/
def occurs (needle text : List Char) : Bool :=
  match text with
  | [] => needle.isEmpty
  | _ :: rest => needle.isPrefixOf text || occurs needle rest

/-- One text occurs in another. -/
def contains (text needle : String) : Bool := occurs needle.toList text.toList

/-- Put a text between the members of a list. -/
def join (sep : String) (parts : List String) : String := sep.intercalate parts

/-- Replace every occurrence of a text that is not empty. -/
def replaceFrom (old new : List Char) : Nat → List Char → List Char
  | 0, cs => cs
  | n + 1, cs =>
    match splitOnce? old cs with
    | some (before, after) => before ++ new ++ replaceFrom old new n after
    | none => cs

def replace (s old new : String) : String :=
  String.ofList (replaceFrom old.toList new.toList s.length s.toList)

end SliceLint.Text
