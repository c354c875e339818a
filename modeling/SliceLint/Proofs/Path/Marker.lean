import SliceLint.Proofs.Path.Normal
import SliceLint.Rule.FileKind

/-!
# Markers in paths

What the rules take for a file of the user interface, or for one that reaches the server, depends on
the pieces of its path one by one: a folder `ui` on the way (`FileKind.inUi_iff`), or a piece that
starts with `api` (`FileKind.mentionsApi_iff`).
-/

namespace SliceLint

/-- Behind a slash, a name between slashes occurs where it is a folder on the way of the path. -/
theorem Path.occurs_between_slashes_iff {name : String} (hname : '/' ∉ name.toList) (p : String) :
    Text.occurs ('/' :: (name.toList ++ ['/'])) ('/' :: p.toList) = true ↔
      name ∈ (Path.pieces p).dropLast := by
  rw [Text.occurs_cons_concat_iff_mem hname, Path.pieces, ← List.map_dropLast, List.mem_map]
  constructor
  · intro h
    exact ⟨_, h, String.ofList_toList⟩
  · rintro ⟨cs, hcs, rfl⟩
    rwa [String.toList_ofList]

namespace FileKind

theorem mentionsApi_iff (p : String) :
    mentionsApi p = true ↔ ∃ seg ∈ Path.pieces p, "api".toList <+: seg.toList := by
  have hneedle : "/api".toList = '/' :: "api".toList := by decide
  have htext : ("/" ++ p).toList = '/' :: p.toList := by simp
  rw [mentionsApi, Text.contains, hneedle, htext, Text.occurs_cons_iff_exists_piece (by decide),
    Path.pieces]
  simp

theorem inUi_iff (p : String) : inUi p = true ↔ "ui" ∈ (Path.pieces p).dropLast := by
  have hneedle : "/ui/".toList = '/' :: ("ui".toList ++ ['/']) := by decide
  have htext : ("/" ++ p).toList = '/' :: p.toList := by simp
  rw [inUi, Text.contains, hneedle, htext, Path.occurs_between_slashes_iff (by decide)]

end FileKind

end SliceLint
