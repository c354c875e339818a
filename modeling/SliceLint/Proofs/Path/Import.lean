import SliceLint.Proofs.Path.Normal
import SliceLint.Config.Basic
import Mathlib.Data.List.DropRight

/-!
# Aliases and coordinates by segments

**Coordinates** (`Coordinate.ofPath?_eq_some_iff`). A path has a coordinate when its segments start
with those of the source root, and the segments that follow name the coordinate.

**Aliases** (`resolveImport?_standardAliases`). The prefix `~/` of the standard aliases stands for
the source root, whose `.` and `..` segments are gone from the path that a specifier names.
-/

namespace SliceLint

/-! ## Trimmed paths -/

namespace Path

/-- A path with no slash at either end. -/
structure IsTrimmed (p : String) : Prop where
  ne_empty : p ≠ ""
  head : p.toList.head? ≠ some '/'
  last : p.toList.getLast? ≠ some '/'

theorem isTrimmed_trim {p : String} (h : Text.trim '/' p ≠ "") : IsTrimmed (Text.trim '/' p) where
  ne_empty := h
  head := by
    intro hhead
    rw [Text.trim, String.toList_ofList] at hhead
    simpa using Text.head?_trimList hhead
  last := by
    intro hlast
    rw [Text.trim, String.toList_ofList] at hlast
    simpa using Text.getLast?_trimList hlast

end Path

/-! ## Coordinates -/

theorem Layer.ofName?_name (l : Layer) : ofName? l.name = some l := by
  cases l <;> decide

theorem Layer.isSliced_features : features.isSliced := rfl

namespace Coordinate

theorem ofPath?_eq_some_iff {path sourceRoot : String} {c : Coordinate} :
    ofPath? path sourceRoot = some c ↔
      ∃ rest, Path.segments path = Path.segments sourceRoot ++ rest ∧
        ofSegments? rest = some c := by
  simp only [ofPath?]
  constructor
  · intro h
    split at h
    · rename_i hfront
      obtain ⟨rest, hrest⟩ := List.isPrefixOf_iff_prefix.1 hfront
      rw [← hrest, List.drop_left] at h
      exact ⟨rest, hrest.symm, h⟩
    · cases h
  · rintro ⟨rest, hpath, hrest⟩
    have hfront : (Path.segments sourceRoot).isPrefixOf (Path.segments sourceRoot ++ rest) :=
      List.isPrefixOf_iff_prefix.2 (List.prefix_append _ _)
    rw [hpath, if_pos hfront, List.drop_left]
    exact hrest

theorem slice_mem_of_ofSegments? {segs : List String} {c : Coordinate} {slice : String}
    (h : ofSegments? segs = some c) (hslice : c.slice = some slice) : slice ∈ segs := by
  unfold ofSegments? at h
  split at h
  · cases h
  · obtain ⟨layer, -, rfl⟩ := Option.map_eq_some_iff.1 h
    split at hslice
    · cases hslice
    · simp only [Option.ite_none_right_eq_some, Option.some.injEq] at hslice
      simp [hslice.2]
    · simp only [Option.ite_none_right_eq_some, Option.some.injEq] at hslice
      simp [hslice.2]

theorem ofSegments?_slice {layer : Layer} (hlayer : layer.isSliced) (slice : String)
    {rest : List String} (hrest : rest ≠ []) :
    ofSegments? (layer.name :: slice :: rest) = some ⟨layer, some slice⟩ := by
  cases rest with
  | nil => exact absurd rfl hrest
  | cons seg rest => simp [ofSegments?, Layer.ofName?_name, hlayer]

/-- Segments that follow the source root as it is written decide the coordinate. -/
theorem ofPath?_of_segments {path sourceRoot slice : String} {layer : Layer} {rest : List String}
    (hlayer : layer.isSliced) (hrest : rest ≠ [])
    (hpath : Path.segments path = Path.segments sourceRoot ++ layer.name :: slice :: rest) :
    ofPath? path sourceRoot = some ⟨layer, some slice⟩ :=
  ofPath?_eq_some_iff.2 ⟨_, hpath, ofSegments?_slice hlayer slice hrest⟩

end Coordinate

/-! ## Aliases -/

theorem Aliases.longest?_standardAliases (sourceRoot tail : String) :
    (Config.standardAliases sourceRoot).longest? ("~/" ++ tail) =
      some ("~/", sourceRoot ++ "/") := by
  simp [Config.standardAliases, Config.standardPrefixes, Aliases.longest?]

theorem resolveImport?_standardAliases {sourceRoot : String} (h : Path.IsTrimmed sourceRoot)
    (tail importer : String) :
    resolveImport? ("~/" ++ tail) importer (Config.standardAliases sourceRoot) =
      some (Path.normalize (sourceRoot ++ "/" ++ tail)) := by
  have hbase : ((sourceRoot ++ "/").toList.reverse.dropWhile (· == '/')).reverse =
      sourceRoot.toList := by
    have hchars : (sourceRoot ++ "/").toList = sourceRoot.toList ++ ['/'] := by simp
    rw [hchars]
    refine (List.rdropWhile_concat_pos (· == '/') _ '/' (by simp)).trans ?_
    refine List.rdropWhile_eq_self_iff.2 fun hne hslash => ?_
    rw [beq_iff_eq] at hslash
    exact h.last (hslash ▸ List.getLast?_eq_some_getLast hne)
  have hrest : ("~/" ++ tail).toList.drop "~/".length = tail.toList := by
    simp [String.length]
  simp only [resolveImport?, Aliases.longest?_standardAliases, hbase, hrest, String.ofList_toList]

theorem Path.segments_normalize_below {sourceRoot : String} (h : IsTrimmed sourceRoot)
    {names : List String} (hnames : ∀ name ∈ names, IsName name) (hne : names ≠ []) :
    segments (normalize (sourceRoot ++ "/" ++ Text.join "/" names)) =
      normalSegments false (segments sourceRoot) ++ names := by
  have hpieces : pieces (sourceRoot ++ "/" ++ Text.join "/" names) = pieces sourceRoot ++ names := by
    rw [pieces_append_slash, pieces_join hne fun name hname => (hnames name hname).no_slash]
  have hnormal : normalSegments false (pieces (sourceRoot ++ "/" ++ Text.join "/" names)) =
      normalSegments false (segments sourceRoot) ++ names := by
    rw [hpieces, normalSegments_append_names hnames, segments, normalSegments_filter]
  have hroot : rootOf (sourceRoot ++ "/" ++ Text.join "/" names) = "" := by
    refine rootOf_eq_empty ?_
    have hchars : sourceRoot.toList.head? ≠ none := by
      simpa using h.ne_empty
    have hfront : (sourceRoot ++ "/" ++ Text.join "/" names).toList.head? =
        sourceRoot.toList.head? := by
      cases hhead : sourceRoot.toList.head? with
      | none => exact absurd hhead hchars
      | some c => simp [hhead]
    rw [hfront]
    exact h.head
  rw [segments_normalize hroot, hnormal]
  rw [hnormal]
  exact List.append_ne_nil_of_right_ne_nil _ hne

end SliceLint
