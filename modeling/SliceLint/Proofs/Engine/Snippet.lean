import SliceLint.Proofs.Engine.Isolation
import SliceLint.Proofs.Text.Rows

/-!
# The line that a violation shows

A violation points to a row of the text, counted by newlines, and shows the line of that number.

**Agreement** (`code_eq_row`). The violation shows the row around the place it points to, as far as
the rows of the text are plain. A form feed or another separator above the place ends a line and no
row, and the violation then shows another part of the text (`code_ne_row_form_feed`).
-/

namespace SliceLint

/-! ## Snippets by rows -/

theorem snippet_eq_abridged (lines : List String) (n : Nat) :
    snippet lines (n + 1) = abridged (Text.strip (lines.getD n "")) := by
  rw [snippet, List.getD_eq_getElem?_getD]
  cases lines[n]? with
  | some line => rfl
  | none => rfl

/-- Where the rows are plain, a snippet is the row of its number. -/
theorem snippet_lines_eq {text : String} {n : Nat}
    (h : ∀ row ∈ (Text.cut '\n' text.toList).take (n + 1), Text.IsPlainRow row) :
    snippet (Text.lines text) (n + 1) =
      abridged (Text.strip (String.ofList ((Text.cut '\n' text.toList).getD n []))) := by
  have hline : (Text.lines text).getD n "" =
      String.ofList ((Text.linesFrom [] text.toList).getD n []) := by
    rw [Text.lines, List.getD_eq_getElem?_getD, List.getElem?_map, List.getD_eq_getElem?_getD]
    cases (Text.linesFrom [] text.toList)[n]? <;> rfl
  rw [snippet_eq_abridged, hline, Text.strip, Text.strip, String.toList_ofList,
    String.toList_ofList, Text.trim_getD_linesFrom h]

/-! ## Violations and their rows -/

/-- The violation shows the line it points to. -/
def Violation.Shows (v : Violation) (text : String) : Prop :=
  ∃ row : Nat, v.line = row + 1 ∧ v.code = snippet (Text.lines text) (row + 1)

theorem parseViolation_shows (relPath : String) (f : SourceFault) (text : String) :
    (parseViolation relPath f.message f.line f.column text).Shows text :=
  ⟨f.place.row, rfl, rfl⟩

namespace Engine

variable {e : Engine} {text : String} {report : FileReport} {v : Violation}

theorem Reports.shows {relPath : String} {found : Rule × Finding}
    (h : e.Reports relPath (Text.lines text) found v) : v.Shows text := by
  obtain ⟨n, said, -, rfl⟩ := h.eq_numbered
  exact ⟨found.2.place.row, rfl, rfl⟩

theorem shows_of_violations {relPath : String} {n : Nat} {found : List (Rule × Finding)}
    {vs : List Violation} (h : e.violations relPath (Text.lines text) n found = .ok vs)
    (hv : v ∈ vs) : v.Shows text := by
  obtain ⟨x, -, hx⟩ := exists_of_mem_forall₂ (forall₂_reports h) hv
  exact hx.shows

theorem shows_of_reportParsed {ctx : FileContext} {d : Dialect} {tree : Tree}
    (h : e.reportParsed ctx d tree = .ok report) (htext : ctx.text = text)
    (hv : v ∈ report.violations) : v.Shows text := by
  subst htext
  simp only [reportParsed] at h
  cases hvs : e.violations ctx.relPath ctx.lines 1
      ((traceOf e.rules ctx tree).flatMap Call.findings) with
  | error f =>
    rw [hvs] at h
    cases h
  | ok vs =>
    rw [hvs] at h
    cases h
    exact shows_of_violations hvs hv

theorem shows_of_reportUnparsed {ctx : FileContext} {first : Violation} {note : String}
    (h : e.reportUnparsed ctx first note = .ok report) (htext : ctx.text = text)
    (hfirst : first.Shows text) (hv : v ∈ report.violations) : v.Shows text := by
  subst htext
  simp only [reportUnparsed] at h
  cases hvs : e.violations ctx.relPath ctx.lines 2
      ((traceUnparsed e.rules ctx).flatMap Call.findings) with
  | error f =>
    rw [hvs] at h
    cases h
  | ok vs =>
    rw [hvs] at h
    cases h
    rcases List.mem_cons.1 hv with rfl | hv
    · exact hfirst
    · exact shows_of_violations hvs hv

/-- A report on a text, whose tree is read from the text or given. -/
inductive ReportsOn [SourceReader] (e : Engine) (text : String) (report : FileReport) : Prop
  | read (path relPath : String) (run : RunContext)
      (h : e.report path relPath run (.ok text) = .ok report)
  | given (ctx : FileContext) (d : Dialect) (tree : Tree) (htext : ctx.text = text)
      (h : e.reportParsed ctx d tree = .ok report)

theorem ReportsOn.shows [SourceReader] (h : e.ReportsOn text report) (hv : v ∈ report.violations) :
    v.Shows text := by
  cases h with
  | given ctx d tree htext h => exact shows_of_reportParsed h htext hv
  | read path relPath run h =>
    unfold Engine.report at h
    cases hread : readSource (Path.suffix path) text with
    | error f =>
      simp only [hread] at h
      exact shows_of_reportUnparsed h rfl (parseViolation_shows relPath f text) hv
    | ok read =>
      simp only [hread] at h
      exact shows_of_reportParsed h rfl hv

end Engine

/-- **Agreement.** A violation that points to the row of some place shows the row around the place,
where no line ends but with a row from the start of the text to the end of that row. -/
theorem code_eq_row [SourceReader] {e : Engine} {text : String} {report : FileReport}
    {v : Violation} {before after : List Char} (h : e.ReportsOn text report)
    (hv : v ∈ report.violations) (htext : text.toList = before ++ after)
    (hline : v.line = (Position.origin.afterAll before).row + 1)
    (hrows : ∀ row ∈ Text.cut '\n' (before ++ after.takeWhile (· != '\n')), Text.IsPlainRow row) :
    v.code = abridged (Text.strip (String.ofList (Text.rowAround before after))) := by
  obtain ⟨row, hrow, hcode⟩ := h.shows hv
  obtain ⟨earlier, later, hearlier, hall, hfront⟩ := Text.exists_cut_eq_rowAround before after
  have hnumber : earlier.length = row := by
    rw [Text.row_afterAll] at hline
    have horigin : Position.origin.row = 0 := rfl
    omega
  have htake : (Text.cut '\n' text.toList).take (row + 1) =
      Text.cut '\n' (before ++ after.takeWhile (· != '\n')) := by
    rw [htext, hall, hfront, ← hnumber, List.take_length_add_append]
    rfl
  have hget : (Text.cut '\n' text.toList).getD row [] = Text.rowAround before after := by
    rw [htext, hall, ← hnumber]
    simp
  rw [hcode, snippet_lines_eq (by rwa [htake]), hget]

/-! ## Two exports with a comment between them -/

namespace Shop

/-- The second default export of a file. -/
def exportRow : String := "export default b;"

/-- The text of a file with a comment behind its first default export. -/
def exportText (comment : String) : String := "export default a;" ++ comment ++ "\n" ++ exportRow

/-- The report on the shape of the file. -/
def exportReport (comment : String) : Except WordingFault FileReport :=
  Engine.reportParsed ⟨[ComponentShape.rule 200], []⟩
    ⟨"/shop/a.ts", "a.ts", exportText comment, none, cartFile.run⟩ .plain
    (.branch programKind "" .origin
      [.branch "export_statement" "" ⟨0, 0⟩ [.leaf "default" false "default" ⟨0, 7⟩],
        .branch "export_statement" "" ⟨1, 0⟩ [.leaf "default" false "default" ⟨1, 7⟩]])

end Shop

/-- A carriage return before the newline changes nothing. -/
theorem code_eq_row_return :
    ∃ report v, Shop.exportReport "\r" = .ok report ∧ v ∈ report.violations ∧
      v.code = Shop.exportRow := by
  have hline : (Shop.exportReport "\r").toOption.map
      (fun report => report.violations.map Violation.line) = some [2] := by decide +kernel
  cases hreport : Shop.exportReport "\r" with
  | error f =>
    rw [hreport] at hline
    cases hline
  | ok report =>
    rw [hreport] at hline
    have hlines : report.violations.map Violation.line = [2] := Option.some.inj hline
    have htwo : (2 : Int) ∈ report.violations.map Violation.line := by
      rw [hlines]
      exact List.mem_singleton_self _
    obtain ⟨v, hv, hline⟩ := List.mem_map.1 htwo
    have hrows : ∀ row ∈ Text.cut '\n' ("export default a;\r\n".toList ++
        Shop.exportRow.toList.takeWhile (· != '\n')), Text.IsPlainRow row := by
      have hcut : Text.cut '\n' ("export default a;\r\n".toList ++
          Shop.exportRow.toList.takeWhile (· != '\n')) =
          ["export default a;".toList ++ ['\r'], Shop.exportRow.toList] := by
        simp [Shop.exportRow, Text.cut]
      have hfirst : ∀ c ∈ "export default a;".toList, Text.isLineEnd c = false := by
        simp [Text.isLineEnd]
      have hsecond : ∀ c ∈ Shop.exportRow.toList, Text.isLineEnd c = false := by
        simp [Shop.exportRow, Text.isLineEnd]
      rw [hcut]
      simp only [List.forall_mem_cons]
      exact ⟨⟨_, hfirst, Or.inr rfl⟩, ⟨_, hsecond, Or.inl rfl⟩,
        fun _ hrow => absurd hrow List.not_mem_nil⟩
    have htext : (Shop.exportText "\r").toList =
        "export default a;\r\n".toList ++ Shop.exportRow.toList := by decide +kernel
    have hrow : v.line = (Position.origin.afterAll "export default a;\r\n".toList).row + 1 := by
      rw [hline, Text.row_afterAll]
      simp [Position.origin]
    have hcode := code_eq_row (.given _ _ _ rfl hreport) hv htext hrow hrows
    refine ⟨report, v, rfl, hv, hcode.trans ?_⟩
    decide +kernel

/-- A form feed in the comment moves the line away from the row. -/
theorem code_ne_row_form_feed :
    (Shop.exportReport "// x\x0cy").toOption.map
        (fun report => report.violations.map fun v => (v.line, v.code)) = some [(2, "y")] ∧
      Text.rowAround "export default a;// x\x0cy\n".toList Shop.exportRow.toList =
        Shop.exportRow.toList := by
  decide +kernel

end SliceLint
