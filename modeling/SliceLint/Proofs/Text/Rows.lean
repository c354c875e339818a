import SliceLint.Proofs.Text.Pieces
import SliceLint.Source.Position
import Mathlib.Data.List.DropRight

/-!
# Lines and rows

The rows of a text end at newlines, its lines at every line end. Both are counted from zero here.

**Plain rows** (`IsPlainRow`). A row with no line end in it, but perhaps a carriage return before
its newline.

**Agreement** (`trim_getD_linesFrom`). As far as the rows of a text are plain, its lines are its
rows, up to blanks at the end. The proof goes row by row: a plain row gives one line
(`exists_linesFrom_row`), after which the rest of the text is read from a fresh start.

**The row around a place** (`rowAround`). The text between the newlines on both sides of a place is
the row in which the place lies (`exists_cut_eq_rowAround`).
-/

namespace SliceLint.Text

/-! ## Plain rows -/

/-- No line ends in the row before its end, where a carriage return may stand. -/
def IsPlainRow (row : List Char) : Prop :=
  ∃ plain, (∀ c ∈ plain, isLineEnd c = false) ∧ (row = plain ∨ row = plain ++ ['\r'])

theorem linesFrom_append_plain {plain : List Char} (h : ∀ c ∈ plain, isLineEnd c = false)
    (current rest : List Char) :
    linesFrom current (plain ++ rest) = linesFrom (plain.reverse ++ current) rest := by
  induction plain generalizing current with
  | nil => rfl
  | cons c plain ih =>
    obtain ⟨hc, hplain⟩ := List.forall_mem_cons.1 h
    have hreturn : c ≠ '\r' := by
      rintro rfl
      exact absurd hc (by decide)
    have hstep : linesFrom current (c :: (plain ++ rest)) =
        linesFrom (c :: current) (plain ++ rest) := by
      rw [linesFrom]
      · simp [hc]
      · intro _ heq _
        exact absurd heq hreturn
    rw [List.cons_append, hstep, ih hplain, List.reverse_cons, List.append_assoc]
    rfl

theorem exists_linesFrom_row {row : List Char} (h : IsPlainRow row) :
    ∃ line, trimList isSpace line = trimList isSpace row ∧
      (∀ rest, linesFrom [] (row ++ '\n' :: rest) = line :: linesFrom [] rest) ∧
      ∀ n, (linesFrom [] row).getD n [] = [line].getD n [] := by
  obtain ⟨plain, hplain, rfl | rfl⟩ := h
  · refine ⟨row, rfl, fun rest => ?_, fun n => ?_⟩
    · rw [linesFrom_append_plain hplain]
      simp [linesFrom, isLineEnd]
    · have hrow := linesFrom_append_plain hplain [] []
      rw [List.append_nil, List.append_nil] at hrow
      rw [hrow]
      cases row <;> cases n <;> simp [linesFrom]
  · refine ⟨plain, (trimList_concat (by decide) plain).symm, fun rest => ?_, fun n => ?_⟩
    · rw [List.append_assoc, linesFrom_append_plain hplain]
      simp [linesFrom]
    · rw [linesFrom_append_plain hplain]
      simp [linesFrom, isLineEnd]

/-- **Agreement.** Where a row and those before it are plain, the line of its number is the row, up
to blanks. -/
theorem trim_getD_linesFrom {cs : List Char} {n : Nat}
    (h : ∀ row ∈ (cut '\n' cs).take (n + 1), IsPlainRow row) :
    trimList isSpace ((linesFrom [] cs).getD n []) =
      trimList isSpace ((cut '\n' cs).getD n []) := by
  induction n generalizing cs with
  | zero =>
    by_cases hnew : '\n' ∈ cs
    · obtain ⟨first, rest, rfl, hfirst⟩ := List.eq_append_cons_of_mem hnew
      rw [cut_append_cons hfirst] at h ⊢
      obtain ⟨line, hline, hlines, -⟩ := exists_linesFrom_row (h first (by simp))
      rw [hlines]
      exact hline
    · rw [cut_of_notMem hnew] at h ⊢
      obtain ⟨line, hline, -, hlines⟩ := exists_linesFrom_row (h cs (by simp))
      rw [hlines]
      exact hline
  | succ n ih =>
    by_cases hnew : '\n' ∈ cs
    · obtain ⟨first, rest, rfl, hfirst⟩ := List.eq_append_cons_of_mem hnew
      rw [cut_append_cons hfirst] at h ⊢
      obtain ⟨line, -, hlines, -⟩ := exists_linesFrom_row (h first (by simp))
      rw [hlines, List.getD_cons_succ, List.getD_cons_succ]
      refine ih fun row hrow => h row ?_
      rw [List.take_succ_cons]
      exact List.mem_cons_of_mem _ hrow
    · rw [cut_of_notMem hnew] at h ⊢
      obtain ⟨line, -, -, hlines⟩ := exists_linesFrom_row (h cs (by simp))
      rw [hlines]
      rfl

/-! ## The row around a place -/

/-- The text between the newlines on both sides of a place. -/
def rowAround (before after : List Char) : List Char :=
  before.rtakeWhile (· != '\n') ++ after.takeWhile (· != '\n')

theorem rowAround_append_cons (first before after : List Char) :
    rowAround (first ++ '\n' :: before) after = rowAround before after := by
  rw [rowAround, rowAround, List.rtakeWhile, List.rtakeWhile, List.reverse_append,
    List.reverse_cons, List.append_assoc, List.takeWhile_append]
  split
  · rename_i hall
    have hself : before.reverse.takeWhile (· != '\n') = before.reverse :=
      (List.takeWhile_prefix _).eq_of_length hall
    rw [hself]
    simp
  · rfl

theorem rowAround_of_notMem {before : List Char} (h : '\n' ∉ before) (after : List Char) :
    rowAround before after = before ++ after.takeWhile (· != '\n') := by
  have hself : before.rtakeWhile (· != '\n') = before := by
    rw [List.rtakeWhile_eq_self_iff]
    intro c hc
    refine bne_iff_ne.2 ?_
    rintro rfl
    exact h hc
  rw [rowAround, hself]

/-- The row around a place has as many rows before it as there are newlines. -/
theorem exists_cut_eq_rowAround (before after : List Char) :
    ∃ earlier later, earlier.length = before.count '\n' ∧
      cut '\n' (before ++ after) = earlier ++ rowAround before after :: later ∧
      cut '\n' (before ++ after.takeWhile (· != '\n')) = earlier ++ [rowAround before after] := by
  induction hn : before.count '\n' generalizing before with
  | zero =>
    have hbefore : '\n' ∉ before := List.count_eq_zero.1 hn
    have hrow : '\n' ∉ rowAround before after := by
      rw [rowAround_of_notMem hbefore, List.mem_append, not_or]
      exact ⟨hbefore, fun hmem => by simpa using List.mem_takeWhile_imp hmem⟩
    rw [rowAround_of_notMem hbefore] at hrow ⊢
    cases hafter : after.dropWhile (· != '\n') with
    | nil =>
      have hself : after.takeWhile (· != '\n') = after := by
        simpa [hafter] using List.takeWhile_append_dropWhile (p := (· != '\n')) (l := after)
      rw [hself] at hrow ⊢
      exact ⟨[], [], rfl, cut_of_notMem hrow, cut_of_notMem hrow⟩
    | cons c rest =>
      have hhead : (after.dropWhile (· != '\n')).head? = some c := by rw [hafter, List.head?_cons]
      obtain rfl : c = '\n' := by simpa using head?_dropWhile hhead
      have hself : before ++ after =
          (before ++ after.takeWhile (· != '\n')) ++ '\n' :: rest := by
        rw [← hafter, List.append_assoc, List.takeWhile_append_dropWhile]
      refine ⟨[], cut '\n' rest, rfl, ?_, cut_of_notMem hrow⟩
      rw [hself, cut_append_cons hrow, List.nil_append]
  | succ n ih =>
    have hmem : '\n' ∈ before := List.count_pos_iff.1 (by omega)
    obtain ⟨first, before, rfl, hfirst⟩ := List.eq_append_cons_of_mem hmem
    have hcount : before.count '\n' = n := by
      rw [List.count_append, List.count_eq_zero.2 hfirst, List.count_cons_self] at hn
      omega
    obtain ⟨earlier, later, hlength, hall, hfront⟩ := ih before hcount
    refine ⟨first :: earlier, later, by rw [List.length_cons, hlength], ?_, ?_⟩
    · rw [List.append_assoc, List.cons_append, cut_append_cons hfirst, hall,
        rowAround_append_cons, List.cons_append]
    · rw [List.append_assoc, List.cons_append, cut_append_cons hfirst, hfront,
        rowAround_append_cons, List.cons_append]

theorem row_afterAll (p : Position) (cs : List Char) :
    (p.afterAll cs).row = p.row + cs.count '\n' := by
  induction cs generalizing p with
  | nil => rfl
  | cons c cs ih =>
    rw [Position.afterAll_cons, ih, Position.after]
    by_cases hc : c = '\n'
    · simp only [hc, if_true, List.count_cons_self]
      omega
    · simp [hc]

end SliceLint.Text
