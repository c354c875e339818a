import SliceLint.Text.Lines

/-!
# Snippets

The line of source that a report shows: without the blanks around it, and cut when it is long.
-/

namespace SliceLint

/-- The most characters a snippet has. -/
def snippetLimit : Nat := 200

/-- Cut a text that is longer than a snippet, and mark the cut. -/
def abridged (s : String) : String :=
  if s.length > snippetLimit then String.ofList (s.toList.take (snippetLimit - 3)) ++ "..." else s

/-- The snippet of a line, counted from one; empty when there is no such line. -/
def snippet (lines : List String) (line : Nat) : String :=
  match line with
  | 0 => ""
  | n + 1 =>
    match lines[n]? with
    | some text => abridged (Text.strip text)
    | none => ""

end SliceLint
