import SliceLint.Text.Lines

/-!
# Glob patterns

A pattern is read into parts: a star matches any text, slashes included, a question mark one
character, and a bracket one character of a set.

**Brackets.** A leading exclamation mark takes the complement. A closing bracket that comes first
belongs to the set, and so does a hyphen that comes first or last. A range whose ends are in the
wrong order is empty and takes its ends along. A bracket that is never closed stands for itself.
-/

namespace SliceLint

/-- One part of a pattern. -/
inductive Glob.Part where
  | star
  | any
  | exactly (c : Char)
  | oneOf (complement : Bool) (ranges : List (Char × Char))
deriving DecidableEq, Repr

/-- A pattern as its parts. -/
abbrev Glob := List Glob.Part

namespace Glob

/-! ## Brackets -/

/-- Cut the inside of a bracket at the hyphens that make ranges. The first argument counts the
characters that cannot be such a hyphen. -/
def chunksFrom : Nat → List Char → List Char → List (List Char)
  | _, current, [] => [current.reverse]
  | n + 1, current, c :: rest => chunksFrom n (c :: current) rest
  | 0, current, c :: rest =>
    if c == '-' then current.reverse :: chunksFrom 2 [] rest
    else chunksFrom 0 (c :: current) rest

/-- A hyphen at the end makes no range. -/
def chunks (lead : Nat) (cs : List Char) : List (List Char) :=
  let all := chunksFrom lead [] cs
  match all.reverse with
  | [] :: last :: before => (before.reverse ++ [last ++ ['-']])
  | _ => all

/-- Drop the ranges whose ends are in the wrong order, from the last to the first. -/
def dropEmpty : List (List Char) → List (List Char)
  | [] => []
  | chunk :: rest =>
    match dropEmpty rest with
    | [] => [chunk]
    | next :: others =>
      match chunk.getLast?, next.head? with
      | some a, some b =>
        if b < a then (chunk.dropLast ++ next.drop 1) :: others else chunk :: next :: others
      | _, _ => chunk :: next :: others

/-- Characters of a set in written order; those marked cannot join a range. -/
def itemsOf (parts : List (List Char)) : List (Char × Bool) :=
  match parts with
  | [] => []
  | first :: rest =>
    first.map (·, true) ++ rest.flatMap fun chunk => ('-', false) :: chunk.map (·, true)

/-- Read the items of a set: a hyphen between two items joins them to a range. -/
def rangesOf : List (Char × Bool) → List (Char × Char)
  | (a, _) :: ('-', false) :: (b, _) :: rest => (a, b) :: rangesOf rest
  | (a, _) :: rest => (a, a) :: rangesOf rest
  | [] => []

/-- The part that the inside of a bracket stands for. -/
def bracket (inside : List Char) : Part :=
  let negated := inside.head? == some '!'
  let parts :=
    if inside.contains '-' then dropEmpty (chunks (if negated then 2 else 1) inside)
    else [inside]
  match itemsOf parts with
  | [] => .oneOf false []
  | ('!', _) :: rest => if rest.isEmpty then .any else .oneOf true (rangesOf rest)
  | items => .oneOf false (rangesOf items)

/-- The number of characters before the bracket that closes a set. -/
def closing? (cs : List Char) : Option Nat :=
  let lead := match cs with
    | '!' :: ']' :: _ => 2
    | '!' :: _ => 1
    | ']' :: _ => 1
    | _ => 0
  let rest := cs.drop lead
  let n := (rest.takeWhile (· != ']')).length
  if n < rest.length then some (lead + n) else none

/-! ## Patterns -/

/-- Read a pattern, at most so many parts. -/
def parseFrom : Nat → List Char → Glob
  | 0, _ => []
  | _, [] => []
  | n + 1, '*' :: rest =>
    match parseFrom n rest with
    | .star :: parts => .star :: parts
    | parts => .star :: parts
  | n + 1, '?' :: rest => .any :: parseFrom n rest
  | n + 1, '[' :: rest =>
    match closing? rest with
    | none => .exactly '[' :: parseFrom n rest
    | some k => bracket (rest.take k) :: parseFrom n (rest.drop (k + 1))
  | n + 1, c :: rest => .exactly c :: parseFrom n rest

/-- Read a pattern. -/
def parse (pattern : String) : Glob := parseFrom pattern.length pattern.toList

/-- The part matches one character. -/
def Part.accepts (p : Part) (c : Char) : Bool :=
  match p with
  | .star => false
  | .any => true
  | .exactly d => c == d
  | .oneOf complement ranges => (ranges.any fun (a, b) => a ≤ c && c ≤ b) != complement

/-- Some end of a text meets a condition, the text itself and the empty end included. -/
def someEnd (p : List Char → Bool) : List Char → Bool
  | [] => p []
  | c :: cs => p (c :: cs) || someEnd p cs

/-- The parts match a text from start to end. -/
def covers : Glob → List Char → Bool
  | [], cs => cs.isEmpty
  | .star :: parts, cs => someEnd (covers parts) cs
  | _ :: _, [] => false
  | p :: parts, c :: cs => p.accepts c && covers parts cs

/-! ## Matching in one pass -/

/-- For each end of a pattern, whether it matches the empty text. -/
def emptyRow : Glob → List Bool
  | [] => [true]
  | .star :: parts => (emptyRow parts).headD false :: emptyRow parts
  | _ :: parts => false :: emptyRow parts

/-- For each end of a pattern, whether it matches a text with one more character in front, given
the same for the text without it. -/
def nextRow (c : Char) : Glob → List Bool → List Bool
  | .star :: parts, old :: row =>
    let rest := nextRow c parts row
    (rest.headD false || old) :: rest
  | p :: parts, _ :: row => (p.accepts c && row.headD false) :: nextRow c parts row
  | _, _ => [false]

/-- For each end of a pattern, whether it matches a text. -/
def row (g : Glob) (cs : List Char) : List Bool := cs.foldr (fun c old => nextRow c g old) (emptyRow g)

/-- The ends of a pattern, the longest first. -/
def ends : Glob → List Glob
  | [] => [[]]
  | p :: parts => (p :: parts) :: ends parts

@[simp] theorem head?_ends (g : Glob) : g.ends.head? = some g := by cases g <;> rfl

theorem emptyRow_eq (g : Glob) : emptyRow g = g.ends.map (covers · []) := by
  induction g with
  | nil => rfl
  | cons p parts ih => cases p <;> simp [emptyRow, ends, ih, covers, someEnd]

theorem nextRow_eq (c : Char) (cs : List Char) (g : Glob) :
    nextRow c g (g.ends.map (covers · cs)) = g.ends.map (covers · (c :: cs)) := by
  induction g with
  | nil => rfl
  | cons p parts ih => cases p <;> simp [nextRow, ends, ih, covers, someEnd]

theorem row_eq (g : Glob) (cs : List Char) : g.row cs = g.ends.map (covers · cs) := by
  induction cs with
  | nil => exact emptyRow_eq g
  | cons c cs ih => exact (congrArg (nextRow c g) ih).trans (nextRow_eq c cs g)

theorem headD_row (g : Glob) (cs : List Char) : (g.row cs).headD false = g.covers cs := by
  simp [row_eq]

/-- The pattern matches a text. -/
def accepts (g : Glob) (s : String) : Bool := (g.row s.toList).headD false

end Glob

/-- One of the patterns matches the path, with or without a slash before it. -/
def isExcluded (path : String) (patterns : List String) : Bool :=
  patterns.any fun p => (Glob.parse p).accepts path || (Glob.parse p).accepts ("/" ++ path)

end SliceLint
