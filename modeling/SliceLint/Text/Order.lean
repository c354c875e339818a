/-!
# Sorted texts

Texts are sorted by their code points.
-/

namespace SliceLint.Text

/-- The texts in order. -/
def sorted (texts : List String) : List String := texts.mergeSort fun a b => decide (a ≤ b)

/-- A list without repetitions, each member at its first place. -/
def distinct {α : Type} [BEq α] (xs : List α) : List α :=
  xs.foldl (fun kept x => if kept.contains x then kept else kept ++ [x]) []

end SliceLint.Text
