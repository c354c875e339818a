import SliceLint.Proofs.Path.Normal

/-!
# Spelled paths

**Spelling** (`segments_spell_root`, `rootOf_spell`). Segments that are spelled are read back, and
so is the root that they are spelled with.

**Absolute paths** (`segments_normalize_absolute`). In the normal form of an absolute path all
segments are names.
-/

namespace SliceLint

namespace Path

/-! ## Kept segments -/

/-- A segment that a spelling keeps. -/
structure IsKept (seg : String) : Prop where
  ne_empty : seg ≠ ""
  ne_dot : seg ≠ "."
  no_slash : '/' ∉ seg.toList

theorem IsName.isKept {seg : String} (h : IsName seg) : IsKept seg :=
  ⟨h.ne_empty, h.ne_dot, h.no_slash⟩

theorem isKept_append_names {front names : List String} (hfront : ∀ seg ∈ front, IsKept seg)
    (hnames : ∀ name ∈ names, IsName name) : ∀ seg ∈ front ++ names, IsKept seg :=
  List.forall_mem_append.2 ⟨hfront, fun name hname => (hnames name hname).isKept⟩

theorem isKept_of_mem_spelledSegments {p seg : String} (h : seg ∈ spelledSegments p) :
    IsKept seg := by
  obtain ⟨h, hdot⟩ := List.mem_filter.1 h
  obtain ⟨h, hempty⟩ := List.mem_filter.1 h
  exact ⟨bne_iff_ne.1 hempty, bne_iff_ne.1 hdot, notMem_of_mem_pieces h⟩

/-! ## Roots -/

theorem isAbsolute_iff {p : String} : isAbsolute p = true ↔ p.toList.head? = some '/' := by
  rw [isAbsolute, String.startsWith_string_iff]
  cases p.toList <;> simp [List.cons_prefix_cons, eq_comm]

/-- A root that a path may have. -/
def IsRoot (root : String) : Prop := root = "" ∨ root = "/" ∨ root = "//"

theorem isRoot_rootOf (p : String) : IsRoot (rootOf p) := by
  unfold rootOf
  split
  · exact Or.inr (Or.inl rfl)
  · exact Or.inr (Or.inr rfl)
  · exact Or.inr (Or.inl rfl)
  · exact Or.inl rfl

theorem rootOf_eq_empty_iff {p : String} : rootOf p = "" ↔ isAbsolute p = false := by
  rw [← Bool.not_eq_true, isAbsolute_iff]
  constructor
  · intro h hhead
    unfold rootOf at h
    split at h
    · exact absurd h (by decide)
    · exact absurd h (by decide)
    · exact absurd h (by decide)
    · rename_i hnone
      cases hchars : p.toList with
      | nil =>
        rw [hchars] at hhead
        cases hhead
      | cons c cs =>
        rw [hchars] at hhead
        cases hhead
        exact hnone cs hchars
  · exact rootOf_eq_empty

theorem rootOf_slash_append {p : String} (h : p.toList.head? ≠ some '/') :
    rootOf ("/" ++ p) = "/" := by
  have hchars : ("/" ++ p).toList = '/' :: p.toList := by simp
  rw [rootOf, hchars]
  split
  · rfl
  · simp_all
  · rfl
  · rename_i hnone
    exact absurd rfl (hnone p.toList)

theorem rootOf_slashes_append {p : String} (h : p.toList.head? ≠ some '/') :
    rootOf ("//" ++ p) = "//" := by
  have hchars : ("//" ++ p).toList = '/' :: '/' :: p.toList := by simp
  rw [rootOf, hchars]
  split
  · simp_all
  · rfl
  · rename_i hslashes heq
    exact absurd (List.cons.inj heq).2.symm (hslashes p.toList)
  · rename_i hslash
    exact absurd rfl (hslash ('/' :: p.toList))

/-! ## Spelling -/

theorem segments_slash_append (p : String) : segments ("/" ++ p) = segments p := by
  have hpieces := pieces_append_slash "" p
  have hempty : pieces "" = [""] := rfl
  rw [String.empty_append, hempty] at hpieces
  rw [segments, hpieces]
  rfl

theorem head?_join {segs : List String} (h : ∀ seg ∈ segs, IsKept seg) :
    (Text.join "/" segs).toList.head? ≠ some '/' := by
  cases segs with
  | nil => simp [Text.join]
  | cons seg segs =>
    have hseg := h seg List.mem_cons_self
    have hfront : ∃ tail, (Text.join "/" (seg :: segs)).toList = seg.toList ++ tail := by
      cases segs with
      | nil => exact ⟨[], by simp [Text.join]⟩
      | cons next segs =>
        exact ⟨'/' :: (Text.join "/" (next :: segs)).toList,
          by simp [Text.join, String.intercalate_cons_cons]⟩
    obtain ⟨tail, htail⟩ := hfront
    cases hchars : seg.toList with
    | nil => exact absurd (String.toList_eq_nil_iff.1 hchars) hseg.ne_empty
    | cons c cs =>
      rw [htail, hchars, List.cons_append, List.head?_cons, ne_eq, Option.some.injEq]
      rintro rfl
      exact hseg.no_slash (hchars ▸ List.mem_cons_self)

theorem segments_spell_root {root : String} (hroot : IsRoot root) {segs : List String}
    (h : ∀ seg ∈ segs, IsKept seg) (hne : root ≠ "" ∨ segs ≠ []) :
    segments (spell root segs) = segs := by
  have hjoin : segments (Text.join "/" segs) = segs :=
    segments_join (fun seg hseg => (h seg hseg).no_slash) fun hempty => (h "" hempty).ne_empty rfl
  have hsome : ¬ (root == "" && segs.isEmpty) = true := by
    simpa [List.isEmpty_iff, imp_iff_not_or] using hne
  rw [spell, if_neg hsome]
  rcases hroot with rfl | rfl | rfl
  · rw [String.empty_append, hjoin]
  · rw [segments_slash_append, hjoin]
  · rw [show "//" = "/" ++ "/" from rfl, String.append_assoc, segments_slash_append,
      segments_slash_append, hjoin]

theorem spelledSegments_spell_root {root : String} (hroot : IsRoot root) {segs : List String}
    (h : ∀ seg ∈ segs, IsKept seg) : spelledSegments (spell root segs) = segs := by
  by_cases hne : root ≠ "" ∨ segs ≠ []
  · rw [spelledSegments, segments_spell_root hroot h hne, List.filter_eq_self]
    exact fun seg hseg => bne_iff_ne.2 (h seg hseg).ne_dot
  · simp only [not_or, not_not] at hne
    rw [hne.1, hne.2]
    decide +kernel

theorem rootOf_spell {root : String} (hroot : IsRoot root) {segs : List String}
    (h : ∀ seg ∈ segs, IsKept seg) : rootOf (spell root segs) = root := by
  have hhead := head?_join h
  rw [spell]
  split
  · rename_i hnone
    simp only [Bool.and_eq_true, beq_iff_eq] at hnone
    rw [hnone.1]
    decide
  · rcases hroot with rfl | rfl | rfl
    · rw [String.empty_append]
      exact rootOf_eq_empty hhead
    · exact rootOf_slash_append hhead
    · exact rootOf_slashes_append hhead

theorem spell_ne_empty {root : String} (hroot : IsRoot root) {segs : List String}
    (h : ∀ seg ∈ segs, IsKept seg) : spell root segs ≠ "" := by
  intro hempty
  have hrootOf := rootOf_spell hroot h
  have hspelled := spelledSegments_spell_root hroot h
  rw [hempty] at hrootOf hspelled
  have hnothing : rootOf "" = "" ∧ spelledSegments "" = [] := by decide +kernel
  rw [← hrootOf, ← hspelled, hnothing.1, hnothing.2] at hempty
  exact absurd hempty (by decide)

/-- A path that is spelled as its segments are. -/
def IsSpelled (p : String) : Prop := spelled p = p

theorem isSpelled_spell {root : String} (hroot : IsRoot root) {segs : List String}
    (h : ∀ seg ∈ segs, IsKept seg) : IsSpelled (spell root segs) := by
  rw [IsSpelled, spelled, rootOf_spell hroot h, spelledSegments_spell_root hroot h]

theorem isSpelled_spelled (p : String) : IsSpelled (spelled p) :=
  isSpelled_spell (isRoot_rootOf p) fun _ => isKept_of_mem_spelledSegments

theorem isSpelled_below (base p : String) : IsSpelled (below base p) := by
  rw [below]
  split
  · exact isSpelled_spelled p
  · exact isSpelled_spell (isRoot_rootOf base) (List.forall_mem_append.2
      ⟨fun _ => isKept_of_mem_spelledSegments, fun _ => isKept_of_mem_spelledSegments⟩)

theorem IsSpelled.ne_empty {p : String} (h : IsSpelled p) : p ≠ "" :=
  ne_of_eq_of_ne h.symm (spell_ne_empty (isRoot_rootOf p) fun _ => isKept_of_mem_spelledSegments)

theorem below_spell (base : String) {segs : List String} (h : ∀ seg ∈ segs, IsKept seg) :
    below base (spell "" segs) = spell (rootOf base) (spelledSegments base ++ segs) := by
  have habsolute : isAbsolute (spell "" segs) = false :=
    rootOf_eq_empty_iff.1 (rootOf_spell (Or.inl rfl) h)
  rw [below, if_neg (by rw [habsolute]; exact Bool.false_ne_true),
    spelledSegments_spell_root (Or.inl rfl) h]

theorem isAbsolute_below {base : String} (hbase : isAbsolute base = true) (p : String) :
    isAbsolute (below base p) = true := by
  have hspell : ∀ {root segs}, IsRoot root → root ≠ "" → (∀ seg ∈ segs, IsKept seg) →
      isAbsolute (spell root segs) = true := by
    intro root segs hroot hne hsegs
    rw [← Bool.not_eq_false, ← rootOf_eq_empty_iff, rootOf_spell hroot hsegs]
    exact hne
  have hrootOf : ∀ {q}, isAbsolute q = true → rootOf q ≠ "" := by
    intro q hq
    rw [ne_eq, rootOf_eq_empty_iff, hq]
    decide
  rw [below]
  split
  · rename_i hp
    exact hspell (isRoot_rootOf p) (hrootOf hp) fun _ => isKept_of_mem_spelledSegments
  · exact hspell (isRoot_rootOf base) (hrootOf hbase) (List.forall_mem_append.2
      ⟨fun _ => isKept_of_mem_spelledSegments, fun _ => isKept_of_mem_spelledSegments⟩)

theorem normalSegments_spelledSegments (rooted : Bool) (p : String) :
    normalSegments rooted (spelledSegments p) = normalSegments rooted (pieces p) := by
  rw [spelledSegments, segments, List.filter_filter, normalSegments, List.foldl_filter,
    normalSegments]
  congr 2
  funext stack seg
  by_cases hseg : seg = "" ∨ seg = "."
  · rw [push_skipped hseg]
    exact ite_self stack
  · rw [if_pos]
    simpa [and_comm] using hseg

/-! ## Absolute paths -/

theorem isName_of_mem_normalSegments {segs : List String} (h : ∀ seg ∈ segs, '/' ∉ seg.toList) :
    ∀ name ∈ normalSegments true segs, IsName name := by
  have hstack := List.foldlRecOn segs (push true) (b := [])
    (motive := fun stack => ∀ name ∈ stack, IsName name)
    (fun _ hname => absurd hname List.not_mem_nil) fun stack hstack seg hseg => ?_
  · exact fun name hname => hstack name (List.mem_reverse.1 hname)
  by_cases hskip : seg = "" ∨ seg = "."
  · rwa [push_skipped hskip]
  by_cases hdots : seg = ".."
  · subst hdots
    cases stack with
    | nil => exact hstack
    | cons top rest =>
      obtain ⟨htop, hrest⟩ := List.forall_mem_cons.1 hstack
      have hpush : push true (top :: rest) ".." = rest := by simp [push, htop.ne_dots]
      rwa [hpush]
  · obtain ⟨hempty, hdot⟩ := not_or.1 hskip
    have hname : IsName seg := ⟨hempty, hdot, hdots, h seg hseg⟩
    rw [push_name hname]
    exact List.forall_mem_cons.2 ⟨hname, hstack⟩

theorem segments_normalize_absolute {p : String} (h : isAbsolute p = true) :
    segments (normalize p) = normalSegments true (pieces p) := by
  have hroot : rootOf p ≠ "" := by
    rw [ne_eq, rootOf_eq_empty_iff, h]
    decide
  have hnames : ∀ seg ∈ normalSegments true (pieces p), IsKept seg := fun seg hseg =>
    (isName_of_mem_normalSegments (fun _ => notMem_of_mem_pieces) seg hseg).isKept
  have hspell : normalize p = spell (rootOf p) (normalSegments true (pieces p)) := by
    have hrooted : (rootOf p != "") = true := bne_iff_ne.2 hroot
    rw [normalize, hrooted]
    simp [spell, hroot]
  rw [hspell, segments_spell_root (isRoot_rootOf p) hnames (Or.inl hroot)]

/-! ## Paths from a folder -/

theorem exists_append_slash {p : String} (h : p.endsWith "/" = true) :
    ∃ front, p = front ++ "/" := by
  have hsuffix : ['/'] <:+ p.toList := by
    simpa using String.Slice.endsWith_string_iff.1 h
  obtain ⟨front, hfront⟩ := hsuffix
  refine ⟨String.ofList front, ?_⟩
  rw [← String.toList_inj]
  simpa using hfront.symm

theorem pieces_suffix_under (base p : String) : pieces p <:+ pieces (under base p) := by
  rw [under]
  split
  · exact List.suffix_refl _
  split
  · rename_i hbase
    simp only [Bool.or_eq_true, beq_iff_eq] at hbase
    rcases hbase with rfl | hbase
    · exact ⟨[], by rw [String.empty_append, List.nil_append]⟩
    · obtain ⟨front, rfl⟩ := exists_append_slash hbase
      rw [pieces_append_slash]
      exact List.suffix_append _ _
  · rw [pieces_append_slash]
    exact List.suffix_append _ _

theorem suffix_pieces_spell {root : String} (hroot : IsRoot root) {segs : List String}
    (h : ∀ seg ∈ segs, '/' ∉ seg.toList) (hne : segs ≠ []) : segs <:+ pieces (spell root segs) := by
  have hsome : ¬ (root == "" && segs.isEmpty) = true := by simp [hne]
  rw [spell, if_neg hsome]
  rcases hroot with rfl | rfl | rfl
  · exact ⟨[], by rw [String.empty_append, pieces_join hne h, List.nil_append]⟩
  · have hpieces := pieces_append_slash "" (Text.join "/" segs)
    rw [String.empty_append, pieces_join hne h] at hpieces
    rw [hpieces]
    exact List.suffix_append _ _
  · rw [show "//" = "/" ++ "/" from rfl, pieces_append_slash, pieces_join hne h]
    exact List.suffix_append _ _

theorem spelledSegments_append_slash (p q : String) :
    spelledSegments (p ++ "/" ++ q) = spelledSegments p ++ spelledSegments q := by
  simp only [spelledSegments, segments, pieces_append_slash, List.filter_append]

theorem spelledSegments_under {base p : String} (h : isAbsolute p = false) :
    spelledSegments (under base p) = spelledSegments base ++ spelledSegments p := by
  rw [under, if_neg (by rw [h]; exact Bool.false_ne_true)]
  split
  · rename_i hbase
    simp only [Bool.or_eq_true, beq_iff_eq] at hbase
    rcases hbase with rfl | hbase
    · rw [String.empty_append]
      rfl
    · obtain ⟨front, rfl⟩ := exists_append_slash hbase
      have hends := spelledSegments_append_slash front ""
      rw [String.append_empty] at hends
      rw [spelledSegments_append_slash, hends]
      simp [spelledSegments, segments, pieces, Text.cut]
  · exact spelledSegments_append_slash base p

end Path

end SliceLint
