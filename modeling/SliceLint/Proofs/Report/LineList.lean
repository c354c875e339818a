import SliceLint.Proofs.Sequence
import SliceLint.Proofs.Text.Digits
import SliceLint.Proofs.Text.Pieces
import SliceLint.Report.Listing

/-!
# Lists of one line each

A list with a line for each violation is made to be cut at its newlines, and each line at its first
five colons. The last field of a line is the message, which may have any colons in it.

**Lines** (`Results.lines_eq_flatMap`). The list is cut into the lines of the violations one by one.
A violation takes one line and one more for each newline in its message, when its other fields have
none (`Results.length_lines`).

**Reading back** (`Results.readsBack_iff`). The lines give the fields of the violations exactly when
there is no newline in any message. The lines of one violation too many are never made up for by
another, because each takes at least one.
-/

namespace SliceLint

/-- Numbers of which each is at least one add up to their number when each is one. -/
theorem sum_succ_eq_length_iff {α : Type} {n : α → Nat} {xs : List α} :
    (xs.map fun x => n x + 1).sum = xs.length ↔ ∀ x ∈ xs, n x = 0 := by
  have hle : ∀ ys : List α, ys.length ≤ (ys.map fun x => n x + 1).sum := by
    intro ys
    induction ys with
    | nil => exact Nat.le_refl 0
    | cons y ys ih =>
      rw [List.map_cons, List.sum_cons, List.length_cons]
      omega
  induction xs with
  | nil => simp
  | cons x xs ih =>
    have hrest := hle xs
    rw [List.map_cons, List.sum_cons, List.length_cons, List.forall_mem_cons]
    constructor
    · intro h
      exact ⟨by omega, ih.1 (by omega)⟩
    · rintro ⟨hx, hxs⟩
      have hsum := ih.2 hxs
      omega

/-! ## Cutting -/

namespace Text

/-- Cut a text at the first occurrences of a character, so many at the most. -/
def cutFirst (sep : Char) : Nat → List Char → List (List Char)
  | 0, cs => [cs]
  | n + 1, cs =>
    match cs.dropWhile (· != sep) with
    | [] => [cs]
    | _ :: rest => cs.takeWhile (· != sep) :: cutFirst sep n rest

theorem cutFirst_append_cons {sep : Char} {first : List Char} (h : sep ∉ first) (n : Nat)
    (rest : List Char) :
    cutFirst sep (n + 1) (first ++ sep :: rest) = first :: cutFirst sep n rest := by
  have hfirst : ∀ c ∈ first, (c != sep) = true := fun c hc => bne_iff_ne.2 fun heq => h (heq ▸ hc)
  have hdrop : (first ++ sep :: rest).dropWhile (· != sep) = sep :: rest := by
    rw [List.dropWhile_append_of_pos hfirst, List.dropWhile_cons_of_neg (by simp)]
  have htake : (first ++ sep :: rest).takeWhile (· != sep) = first := by
    rw [List.takeWhile_append_of_pos hfirst, List.takeWhile_cons_of_neg (by simp),
      List.append_nil]
  rw [cutFirst, hdrop]
  simp only [htake]

/-- Fields that lack the separator are read back, and so is the last field whatever is in it. -/
theorem cutFirst_intercalate {sep : Char} {fields : List (List Char)}
    (h : ∀ field ∈ fields, sep ∉ field) (last : List Char) :
    cutFirst sep fields.length ([sep].intercalate (fields ++ [last])) = fields ++ [last] := by
  induction fields with
  | nil => simp [cutFirst]
  | cons field fields ih =>
    obtain ⟨hfield, hfields⟩ := List.forall_mem_cons.1 h
    have hrest : fields ++ [last] ≠ [] := by simp
    rw [List.cons_append, List.intercalate_cons_of_ne_nil hrest, List.append_assoc,
      List.singleton_append, List.length_cons, cutFirst_append_cons hfield, ih hfields]

theorem cut_intercalate (sep : Char) {texts : List (List Char)} (h : texts ≠ []) :
    cut sep ([sep].intercalate texts) = texts.flatMap (cut sep) := by
  induction texts with
  | nil => exact absurd rfl h
  | cons text texts ih =>
    cases texts with
    | nil => simp
    | cons next texts =>
      rw [List.intercalate_cons_cons, List.append_assoc, List.singleton_append,
        cut_append_cons_self, ih (List.cons_ne_nil next texts), ← List.flatMap_cons]

/-- A character that only the last field may have occurs as often as it does there. -/
theorem count_intercalate {sep c : Char} (hsep : c ≠ sep) {fields : List (List Char)}
    (h : ∀ field ∈ fields, c ∉ field) (last : List Char) :
    ([sep].intercalate (fields ++ [last])).count c = last.count c := by
  induction fields with
  | nil => simp
  | cons field fields ih =>
    obtain ⟨hfield, hfields⟩ := List.forall_mem_cons.1 h
    have hrest : fields ++ [last] ≠ [] := by simp
    rw [List.cons_append, List.intercalate_cons_of_ne_nil hrest, List.append_assoc,
      List.count_append, List.singleton_append, List.count_cons_of_ne hsep.symm, ih hfields,
      List.count_eq_zero.2 hfield, Nat.zero_add]

theorem length_cut (sep : Char) (cs : List Char) : (cut sep cs).length = cs.count sep + 1 := by
  induction cs with
  | nil => rfl
  | cons c cs ih =>
    obtain ⟨piece, pieces, hpieces⟩ := exists_cut_eq_cons sep cs
    rw [hpieces] at ih
    rw [cut]
    by_cases hc : c = sep
    · rw [if_pos hc, hpieces, List.length_cons, ih, hc, List.count_cons_self]
    · rw [if_neg hc, hpieces, List.count_cons_of_ne hc, ← ih]
      rfl

end Text

/-! ## Fields -/

/-- What a violation puts between colons: its place and its weight, its rule, and its message. -/
def Violation.fields (v : Violation) : List String :=
  [v.file, toString v.line, toString v.column, v.severity.name, v.rule, v.message]

/-- Neither a colon nor a newline stands in the text. -/
structure IsPlainField (s : String) : Prop where
  no_colon : ':' ∉ s.toList
  no_newline : '\n' ∉ s.toList

instance : DecidablePred IsPlainField := fun s =>
  decidable_of_iff (':' ∉ s.toList ∧ '\n' ∉ s.toList) ⟨fun h => ⟨h.1, h.2⟩, fun h => ⟨h.1, h.2⟩⟩

/-- The fields in front of the message are plain. -/
structure Violation.IsListable (v : Violation) : Prop where
  file : IsPlainField v.file
  severity : IsPlainField v.severity.name
  rule : IsPlainField v.rule

theorem isPlainField_toString_int (n : Int) : IsPlainField (toString n) :=
  ⟨notMem_toString_int rfl (by decide) n, notMem_toString_int rfl (by decide) n⟩

/-- The fields of a line. -/
def lineFields (line : String) : List String :=
  (Text.cutFirst ':' 5 line.toList).map String.ofList

namespace Violation

variable {v : Violation}

/-- The fields in front of the message. -/
def lead (v : Violation) : List String :=
  [v.file, toString v.line, toString v.column, v.severity.name, v.rule]

theorem IsListable.lead_plain (h : v.IsListable) : ∀ field ∈ v.lead, IsPlainField field := by
  intro field hfield
  simp only [lead, List.mem_cons, List.not_mem_nil, or_false] at hfield
  rcases hfield with rfl | rfl | rfl | rfl | rfl
  · exact h.file
  · exact isPlainField_toString_int v.line
  · exact isPlainField_toString_int v.column
  · exact h.severity
  · exact h.rule

theorem toList_listed (v : Violation) :
    v.listed.toList = [':'].intercalate (v.lead.map String.toList ++ [v.message.toList]) := by
  rw [listed, String.toList_intercalate]
  rfl

theorem listed_ne_empty (v : Violation) : v.listed ≠ "" := by
  intro hempty
  have hchars := v.toList_listed
  rw [hempty, lead, List.map_cons, List.cons_append,
    List.intercalate_cons_of_ne_nil (by simp)] at hchars
  exact absurd hchars (by simp)

theorem IsListable.lineFields_listed (h : v.IsListable) : lineFields v.listed = v.fields := by
  have hlead : ∀ field ∈ v.lead.map String.toList, ':' ∉ field := by
    intro field hfield
    obtain ⟨s, hs, rfl⟩ := List.mem_map.1 hfield
    exact (h.lead_plain s hs).no_colon
  have hcut := Text.cutFirst_intercalate hlead v.message.toList
  rw [List.length_map] at hcut
  rw [lineFields, toList_listed, show 5 = v.lead.length from rfl, hcut]
  simp [lead, fields]

theorem IsListable.count_listed (h : v.IsListable) :
    v.listed.toList.count '\n' = v.message.toList.count '\n' := by
  have hlead : ∀ field ∈ v.lead.map String.toList, '\n' ∉ field := by
    intro field hfield
    obtain ⟨s, hs, rfl⟩ := List.mem_map.1 hfield
    exact (h.lead_plain s hs).no_newline
  rw [toList_listed, Text.count_intercalate (by decide) hlead]

end Violation

/-! ## Lines -/

namespace Results

variable {r : Results}

/-- The lines of the list; a list without any text has none. -/
def lines (r : Results) : List String :=
  if r.porcelain = "" then [] else (Text.cut '\n' r.porcelain.toList).map String.ofList

/-- Cut at its newlines, and each line at its first five colons, the list gives the fields of the
violations, one violation a line and in their order. -/
def ReadsBack (r : Results) : Prop := r.lines.map lineFields = r.violations.map Violation.fields

theorem toList_porcelain (r : Results) :
    r.porcelain.toList = ['\n'].intercalate (r.violations.map fun v => v.listed.toList) := by
  rw [porcelain, String.toList_intercalate, List.map_map]
  rfl

theorem porcelain_eq_empty_iff : r.porcelain = "" ↔ r.violations = [] := by
  rw [← String.toList_eq_nil_iff, toList_porcelain]
  constructor
  · intro hempty
    cases hviolations : r.violations with
    | nil => rfl
    | cons v vs =>
      rw [hviolations, List.map_cons] at hempty
      cases vs with
      | nil =>
        rw [List.map_nil, List.intercalate_singleton] at hempty
        exact absurd (String.toList_eq_nil_iff.1 hempty) v.listed_ne_empty
      | cons w vs =>
        rw [List.map_cons, List.intercalate_cons_cons] at hempty
        exact absurd hempty (by simp)
  · intro hnone
    rw [hnone]
    rfl

theorem lines_eq_flatMap (r : Results) :
    r.lines = r.violations.flatMap fun v =>
      (Text.cut '\n' v.listed.toList).map String.ofList := by
  rw [lines]
  split
  · rename_i hempty
    rw [porcelain_eq_empty_iff.1 hempty]
    rfl
  · rename_i hsome
    have hne : r.violations.map (fun v => v.listed.toList) ≠ [] := by
      rw [ne_eq, List.map_eq_nil_iff]
      exact fun hnone => hsome (porcelain_eq_empty_iff.2 hnone)
    rw [toList_porcelain, Text.cut_intercalate '\n' hne, List.flatMap_map, List.map_flatMap]

/-- A violation takes one line, and one more for each newline in its message. -/
theorem length_lines (h : ∀ v ∈ r.violations, v.IsListable) :
    r.lines.length = (r.violations.map fun v => v.message.toList.count '\n' + 1).sum := by
  have hlength : ∀ v ∈ r.violations, ((Text.cut '\n' v.listed.toList).map String.ofList).length =
      v.message.toList.count '\n' + 1 := by
    intro v hv
    rw [List.length_map, Text.length_cut, (h v hv).count_listed]
  rw [lines_eq_flatMap, List.length_flatMap, List.map_congr_left hlength]

/-- **Reading back.** The list gives the violations exactly when no message has a newline in it. -/
theorem readsBack_iff (h : ∀ v ∈ r.violations, v.IsListable) :
    r.ReadsBack ↔ ∀ v ∈ r.violations, '\n' ∉ v.message.toList := by
  constructor
  · intro hback
    have hlength : r.lines.length = r.violations.length := by
      simpa using congrArg List.length hback
    rw [length_lines h, sum_succ_eq_length_iff] at hlength
    exact fun v hv => List.count_eq_zero.1 (hlength v hv)
  · intro hmessages
    have hline : ∀ v ∈ r.violations,
        (Text.cut '\n' v.listed.toList).map String.ofList = [v.listed] := by
      intro v hv
      have hnone : '\n' ∉ v.listed.toList := by
        rw [← List.count_eq_zero, (h v hv).count_listed, List.count_eq_zero]
        exact hmessages v hv
      rw [Text.cut_of_notMem hnone, List.map_singleton, String.ofList_toList]
    have hlines : r.lines = r.violations.map Violation.listed := by
      rw [lines_eq_flatMap, List.flatMap_congr hline, List.map_eq_flatMap]
    rw [ReadsBack, hlines, List.map_map]
    refine List.map_congr_left fun v hv => ?_
    rw [Function.comp_apply, (h v hv).lineFields_listed]

end Results

end SliceLint
