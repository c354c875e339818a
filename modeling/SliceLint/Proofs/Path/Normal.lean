import SliceLint.Path
import SliceLint.Proofs.Text.Pieces
import Mathlib.Data.List.TakeWhile

/-!
# Segments and the normal form

**Joining** (`segments_join`). Segments that are joined with slashes are the segments of the path
they make.

**Normal segments** (`IsNormal`). `..` segments in front and names behind them. The segments of the
normal form are normal (`isNormal_normalSegments`), and normal segments are left as they are
(`normalSegments_of_isNormal`). The proof goes along the stack on which the normal form is built:
in reverse it is normal after each segment (`isNormal_push`).
-/

namespace SliceLint

namespace Path

/-! ## Cutting and joining -/

theorem notMem_of_mem_pieces {p piece : String} (h : piece ∈ pieces p) : '/' ∉ piece.toList := by
  obtain ⟨cs, hcs, rfl⟩ := List.mem_map.1 h
  rw [String.toList_ofList]
  exact Text.notMem_of_mem_cut hcs

theorem pieces_append_slash (p q : String) : pieces (p ++ "/" ++ q) = pieces p ++ pieces q := by
  have hslash : (p ++ "/" ++ q).toList = p.toList ++ '/' :: q.toList := by simp
  simp only [pieces, hslash, Text.cut_eq_splitOn, List.splitOn_append_cons_self, List.map_append]

theorem pieces_join {segs : List String} (hsegs : segs ≠ [])
    (h : ∀ seg ∈ segs, '/' ∉ seg.toList) : pieces (Text.join "/" segs) = segs := by
  have hcut : (Text.join "/" segs).toList.splitOn '/' = segs.map String.toList := by
    rw [Text.join, String.toList_intercalate]
    refine List.splitOn_intercalate '/' ?_ (by simpa using hsegs)
    intro cs hcs
    obtain ⟨seg, hseg, rfl⟩ := List.mem_map.1 hcs
    exact h seg hseg
  rw [pieces, Text.cut_eq_splitOn, hcut, List.map_map]
  exact (List.map_congr_left fun seg _ => String.ofList_toList).trans (List.map_id segs)

theorem join_pieces (p : String) : Text.join "/" (pieces p) = p := by
  have hmap : ((p.toList.splitOn '/').map String.ofList).map String.toList =
      p.toList.splitOn '/' := by
    rw [List.map_map]
    exact (List.map_congr_left fun cs _ => String.toList_ofList).trans (List.map_id _)
  rw [pieces, Text.cut_eq_splitOn, Text.join, ← String.toList_inj, String.toList_intercalate, hmap]
  exact List.intercalate_splitOn '/'

theorem segments_join {segs : List String} (h : ∀ seg ∈ segs, '/' ∉ seg.toList)
    (hempty : "" ∉ segs) : segments (Text.join "/" segs) = segs := by
  by_cases hsegs : segs = []
  · subst hsegs
    rfl
  · rw [segments, pieces_join hsegs h, List.filter_eq_self]
    intro seg hseg
    refine bne_iff_ne.2 ?_
    rintro rfl
    exact hempty hseg

/-! ## Names -/

/-- A segment that leads down: the name of a file or a folder. -/
structure IsName (seg : String) : Prop where
  ne_empty : seg ≠ ""
  ne_dot : seg ≠ "."
  ne_dots : seg ≠ ".."
  no_slash : '/' ∉ seg.toList

instance : DecidablePred IsName := fun seg =>
  decidable_of_iff (seg ≠ "" ∧ seg ≠ "." ∧ seg ≠ ".." ∧ '/' ∉ seg.toList)
    ⟨fun ⟨he, hd, hds, hs⟩ => ⟨he, hd, hds, hs⟩, fun ⟨he, hd, hds, hs⟩ => ⟨he, hd, hds, hs⟩⟩

theorem IsName.pieces_eq {name : String} (h : IsName name) : pieces name = [name] := by
  have hjoin := pieces_join (List.cons_ne_nil name []) fun seg hseg => by
    rw [List.mem_singleton.1 hseg]
    exact h.no_slash
  rwa [Text.join, String.intercalate_singleton] at hjoin

theorem IsName.spelledSegments_eq {name : String} (h : IsName name) :
    spelledSegments name = [name] := by
  rw [spelledSegments, segments, h.pieces_eq]
  simp [h.ne_empty, h.ne_dot]

theorem IsName.isAbsolute_eq {name : String} (h : IsName name) : isAbsolute name = false := by
  rw [isAbsolute, String.startsWith_string_eq_false_iff]
  intro hslash
  exact h.no_slash (hslash.subset (by simp))

theorem size_under (base : String) {name : String} (hname : IsName name) :
    base.utf8ByteSize + name.utf8ByteSize ≤ (under base name).utf8ByteSize := by
  rw [under, hname.isAbsolute_eq, if_neg Bool.false_ne_true]
  split <;> simp only [String.utf8ByteSize_append] <;> omega

theorem push_name {rooted : Bool} {stack : List String} {seg : String} (h : IsName seg) :
    push rooted stack seg = seg :: stack := by
  simp [push, h.ne_empty, h.ne_dot, h.ne_dots]

theorem push_skipped {rooted : Bool} {stack : List String} {seg : String}
    (h : seg = "" ∨ seg = ".") : push rooted stack seg = stack := by
  simp [push, h]

theorem foldl_push_names {rooted : Bool} {names : List String} (h : ∀ name ∈ names, IsName name)
    (stack : List String) : names.foldl (push rooted) stack = names.reverse ++ stack := by
  induction names generalizing stack with
  | nil => rfl
  | cons name names ih =>
    obtain ⟨hname, hnames⟩ := List.forall_mem_cons.1 h
    rw [List.foldl_cons, push_name hname, ih hnames, List.reverse_cons, List.append_assoc]
    rfl

theorem normalSegments_append_names {rooted : Bool} {names : List String}
    (h : ∀ name ∈ names, IsName name) (segs : List String) :
    normalSegments rooted (segs ++ names) = normalSegments rooted segs ++ names := by
  rw [normalSegments, List.foldl_append, foldl_push_names h, List.reverse_append,
    List.reverse_reverse, normalSegments]

theorem normalSegments_filter (rooted : Bool) (segs : List String) :
    normalSegments rooted (segs.filter (· != "")) = normalSegments rooted segs := by
  rw [normalSegments, List.foldl_filter, normalSegments]
  congr 2
  funext stack seg
  by_cases hseg : seg = ""
  · rw [push_skipped (Or.inl hseg)]
    exact ite_self stack
  · rw [if_pos (bne_iff_ne.2 hseg)]

/-! ## Normal segments -/

/-- Behind the `..` segments in front there are names only. -/
def IsNormal (segs : List String) : Prop := ∀ seg ∈ segs.dropWhile (· == ".."), IsName seg

instance (segs : List String) : Decidable (IsNormal segs) :=
  inferInstanceAs (Decidable (∀ seg ∈ segs.dropWhile (· == ".."), IsName seg))

theorem eq_dots_of_mem_takeWhile {segs : List String} {seg : String}
    (h : seg ∈ segs.takeWhile (· == "..")) : seg = ".." := by
  simpa using List.mem_takeWhile_imp h

namespace IsNormal

variable {segs names : List String}

theorem eq_dots_or_isName (h : IsNormal segs) {seg : String} (hseg : seg ∈ segs) :
    seg = ".." ∨ IsName seg := by
  rw [← List.takeWhile_append_dropWhile (p := (· == "..")) (l := segs), List.mem_append] at hseg
  rcases hseg with hseg | hseg
  · exact Or.inl (eq_dots_of_mem_takeWhile hseg)
  · exact Or.inr (h seg hseg)

theorem dot_notMem (h : IsNormal segs) : "." ∉ segs := by
  intro hdot
  rcases h.eq_dots_or_isName hdot with heq | hname
  · exact absurd heq (by decide)
  · exact hname.ne_dot rfl

theorem of_append (h : IsNormal (segs ++ names)) : IsNormal segs := by
  intro seg hseg
  refine h seg ?_
  rw [List.dropWhile_append, if_neg]
  · exact List.mem_append_left _ hseg
  · rw [List.isEmpty_iff]
    exact List.ne_nil_of_mem hseg

theorem append_names (h : IsNormal segs) (hnames : ∀ name ∈ names, IsName name) :
    IsNormal (segs ++ names) := by
  intro seg hseg
  rw [List.dropWhile_append] at hseg
  split at hseg
  · exact hnames seg ((List.dropWhile_sublist _).subset hseg)
  · rcases List.mem_append.1 hseg with hseg | hseg
    · exact h seg hseg
    · exact hnames seg hseg

/-- One more `..` may follow where the last segment is one. -/
theorem append_dots (h : IsNormal (segs ++ [".."])) : IsNormal (segs ++ [".."] ++ [".."]) := by
  intro seg hseg
  have hall : (segs ++ [".."]).dropWhile (· == "..") = [] := by
    by_contra hne
    have hlast : ".." ∈ (segs ++ [".."]).dropWhile (· == "..") := by
      rw [List.dropWhile_append] at hne ⊢
      split at hne
      · exact absurd rfl hne
      · rename_i hsegs
        rw [if_neg hsegs]
        exact List.mem_append_right _ (List.mem_singleton_self _)
    exact (h ".." hlast).ne_dots rfl
  rw [List.dropWhile_append, hall] at hseg
  exact absurd hseg List.not_mem_nil

end IsNormal

theorem isNormal_push {stack : List String} {seg : String} (hseg : '/' ∉ seg.toList)
    (h : IsNormal stack.reverse) : IsNormal (push false stack seg).reverse := by
  by_cases hskip : seg = "" ∨ seg = "."
  · rwa [push_skipped hskip]
  obtain ⟨hempty, hdot⟩ := not_or.1 hskip
  by_cases hdots : seg = ".."
  · subst hdots
    cases stack with
    | nil => exact fun seg hseg => absurd hseg List.not_mem_nil
    | cons top rest =>
      rw [List.reverse_cons] at h
      by_cases htop : top = ".."
      · subst htop
        simpa [push] using h.append_dots
      · have hrest : push false (top :: rest) ".." = rest := by simp [push, htop]
        rw [hrest]
        exact h.of_append
  · have hname : IsName seg := ⟨hempty, hdot, hdots, hseg⟩
    rw [push_name hname, List.reverse_cons]
    exact h.append_names fun name hmem => by rwa [List.mem_singleton.1 hmem]

/-- **Normal form.** What is left of the segments of a relative path is normal. -/
theorem isNormal_normalSegments {segs : List String} (h : ∀ seg ∈ segs, '/' ∉ seg.toList) :
    IsNormal (normalSegments false segs) :=
  List.foldlRecOn segs (push false) (b := []) (motive := fun stack => IsNormal stack.reverse)
    (fun _ hseg => absurd hseg List.not_mem_nil)
    (fun _ hstack seg hseg => isNormal_push (h seg hseg) hstack)

theorem foldl_push_dots {dots : List String} (h : ∀ seg ∈ dots, seg = "..") :
    ∀ stack : List String, (∀ seg ∈ stack, seg = "..") →
      dots.foldl (push false) stack = dots.reverse ++ stack := by
  induction dots with
  | nil => intro stack _; rfl
  | cons seg dots ih =>
    intro stack hstack
    obtain ⟨rfl, hdots⟩ := List.forall_mem_cons.1 h
    have hpush : push false stack ".." = ".." :: stack := by
      cases stack with
      | nil => rfl
      | cons top rest =>
        rw [hstack top List.mem_cons_self]
        rfl
    rw [List.foldl_cons, hpush, ih hdots _ (List.forall_mem_cons.2 ⟨rfl, hstack⟩),
      List.reverse_cons, List.append_assoc]
    rfl

theorem normalSegments_of_isNormal {segs : List String} (h : IsNormal segs) :
    normalSegments false segs = segs := by
  have hdots : ∀ seg ∈ segs.takeWhile (· == ".."), seg = ".." :=
    fun _ => eq_dots_of_mem_takeWhile
  have hfront : normalSegments false (segs.takeWhile (· == "..")) =
      segs.takeWhile (· == "..") := by
    rw [normalSegments, foldl_push_dots hdots [] (fun seg hseg => absurd hseg List.not_mem_nil),
      List.append_nil, List.reverse_reverse]
  calc normalSegments false segs
      = normalSegments false (segs.takeWhile (· == "..") ++ segs.dropWhile (· == "..")) := by
        rw [List.takeWhile_append_dropWhile]
    _ = segs.takeWhile (· == "..") ++ segs.dropWhile (· == "..") := by
        rw [normalSegments_append_names h, hfront]
    _ = segs := List.takeWhile_append_dropWhile

/-! ## The normal form of a relative path -/

theorem rootOf_eq_empty {p : String} (h : p.toList.head? ≠ some '/') : rootOf p = "" := by
  unfold rootOf
  split <;> simp_all

theorem segments_normalize {p : String} (hroot : rootOf p = "")
    (hleft : normalSegments false (pieces p) ≠ []) :
    segments (normalize p) = normalSegments false (pieces p) := by
  have hnormal : IsNormal (normalSegments false (pieces p)) :=
    isNormal_normalSegments fun _ => notMem_of_mem_pieces
  have hslash : ∀ seg ∈ normalSegments false (pieces p), '/' ∉ seg.toList := by
    intro seg hseg
    rcases hnormal.eq_dots_or_isName hseg with rfl | hname
    · decide
    · exact hname.no_slash
  have hempty : "" ∉ normalSegments false (pieces p) := by
    intro hseg
    rcases hnormal.eq_dots_or_isName hseg with heq | hname
    · exact absurd heq (by decide)
    · exact hname.ne_empty rfl
  have hjoin := segments_join hslash hempty
  have hne : Text.join "/" (normalSegments false (pieces p)) ≠ "" := by
    intro heq
    rw [heq] at hjoin
    exact hleft hjoin.symm
  rw [normalize]
  simpa [hroot, hne] using hjoin

end Path

end SliceLint
