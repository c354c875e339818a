import SliceLint.Engine.FileReport
import SliceLint.Proofs.Engine.Trace
import SliceLint.Proofs.Report.Numbering
import SliceLint.Proofs.Sequence

/-!
# From findings to violations

**Covered findings** (`RuleInfo.Covers`). A finding can be put into words when its rule declares
its message and its data fill every gap of the message. Rules all of whose findings are covered
never stop a run (`exists_violations`).

**Reporting** (`Engine.Reports`). Finding by finding, the violations of a file say what the
findings say; the numbers under which they stand are left open. The violations of some of the
rules come from the findings of these rules (`reports_filter`), and findings that are reported
twice are reported alike (`sameButNumber_of_reports`).
-/

namespace SliceLint

/-! ## Covered findings -/

theorem Template.exists_fill {t : Template} {data : Data}
    (h : ∀ name ∈ t.gaps, (data.lookup name).isSome) : ∃ message, t.fill data = .ok message := by
  have hpieces : ∃ parts, t.mapM (Piece.fill data) = .ok parts := by
    induction t with
    | nil => exact ⟨[], rfl⟩
    | cons piece t ih =>
      have hgaps : ∀ name ∈ Template.gaps t, (data.lookup name).isSome := by
        intro name hname
        refine h name ?_
        obtain ⟨p, hp, hpname⟩ := List.mem_filterMap.1 hname
        exact List.mem_filterMap.2 ⟨p, List.mem_cons_of_mem _ hp, hpname⟩
      obtain ⟨parts, hparts⟩ := ih hgaps
      have hpiece : ∃ part, piece.fill data = .ok part := by
        cases piece with
        | text s => exact ⟨s, rfl⟩
        | gap name =>
          have hname : (data.lookup name).isSome :=
            h name (List.mem_filterMap.2 ⟨.gap name, List.mem_cons_self, rfl⟩)
          obtain ⟨d, hd⟩ := Option.isSome_iff_exists.1 hname
          exact ⟨d.shown, by simp [Piece.fill, hd]⟩
      obtain ⟨part, hpart⟩ := hpiece
      exact ⟨part :: parts, mapM_eq_ok_iff.2 (.cons hpart (mapM_eq_ok_iff.1 hparts))⟩
  obtain ⟨parts, hparts⟩ := hpieces
  exact ⟨String.join parts, by rw [fill, hparts]; rfl⟩

/-- The rule declares the message of the finding, and its data fill every gap. -/
def RuleInfo.Covers (info : RuleInfo) (f : Finding) : Prop :=
  ∃ template, info.messages.lookup f.messageId = some template ∧
    ∀ name ∈ template.gaps, (f.data.lookup name).isSome

/-- All findings of the rule are covered. -/
def Rule.Declares (r : Rule) : Prop :=
  ∀ o ctx s fs, (r.respond o ctx s).1 = .ok fs → ∀ f ∈ fs, r.info.Covers f

/-- The finding of a rule has a wording. -/
def Engine.Words (e : Engine) (found : Rule × Finding) : Prop :=
  ∃ said, e.wording found.1 found.2 = .ok said

theorem Engine.words_of_covers (e : Engine) {r : Rule} {f : Finding} (h : r.info.Covers f) :
    e.Words (r, f) := by
  obtain ⟨template, hlookup, hgaps⟩ := h
  obtain ⟨message, hfill⟩ := Template.exists_fill hgaps
  by_cases hid : f.messageId == failureId
  · exact ⟨_, by simp only [Engine.wording, if_pos hid]; rfl⟩
  · exact ⟨_, by simp only [Engine.wording, if_neg hid, hlookup, hfill]; rfl⟩

theorem Call.rule_of_mem_findings {c : Call} {found : Rule × Finding} (h : found ∈ c.findings) :
    found.1 = c.rule := by
  unfold findings at h
  cases ho : c.outcome with
  | ok fs =>
    rw [ho] at h
    obtain ⟨f, -, rfl⟩ := List.mem_map.1 h
    rfl
  | error f =>
    rw [ho] at h
    rw [List.mem_singleton.1 h]

theorem Engine.words_of_genuine (e : Engine) {rules : List Rule} {ctx : FileContext} {c : Call}
    (hrules : ∀ r ∈ rules, r.Declares) (hc : c.Genuine rules ctx) :
    ∀ found ∈ c.findings, e.Words found := by
  obtain ⟨hrule, s, hs⟩ := hc
  intro found hfound
  unfold Call.findings at hfound
  cases ho : c.outcome with
  | ok fs =>
    rw [ho] at hfound hs
    obtain ⟨f, hf, rfl⟩ := List.mem_map.1 hfound
    exact e.words_of_covers (hrules c.rule hrule c.occasion ctx s fs hs.symm f hf)
  | error fault =>
    rw [ho] at hfound
    rw [List.mem_singleton.1 hfound]
    exact ⟨_, rfl⟩

/-! ## Reporting -/

namespace Engine

variable {e : Engine} {relPath : String} {lines : List String}

/-- The violation says what the finding says, under some number. -/
def Reports (e : Engine) (relPath : String) (lines : List String) (found : Rule × Finding)
    (v : Violation) : Prop :=
  ∃ n, e.violation relPath lines n found = .ok v

theorem exists_violation {found : Rule × Finding} (h : e.Words found) (relPath : String)
    (lines : List String) (n : Nat) : ∃ v, e.violation relPath lines n found = .ok v := by
  obtain ⟨r, f⟩ := found
  obtain ⟨said, hsaid⟩ := h
  exact ⟨_, by simp only [violation, hsaid]; rfl⟩

theorem exists_violations {found : List (Rule × Finding)} (h : ∀ x ∈ found, e.Words x)
    (relPath : String) (lines : List String) (n : Nat) :
    ∃ vs, e.violations relPath lines n found = .ok vs := by
  induction found generalizing n with
  | nil => exact ⟨[], rfl⟩
  | cons x found ih =>
    obtain ⟨v, hv⟩ := exists_violation (h x List.mem_cons_self) relPath lines n
    obtain ⟨vs, hvs⟩ := ih (fun y hy => h y (List.mem_cons_of_mem _ hy)) (n + 1)
    exact ⟨v :: vs, by simp only [violations, hv, hvs]; rfl⟩

theorem forall₂_reports {found : List (Rule × Finding)} {vs : List Violation} {n : Nat}
    (h : e.violations relPath lines n found = .ok vs) :
    List.Forall₂ (e.Reports relPath lines) found vs := by
  induction found generalizing n vs with
  | nil =>
    cases h
    exact .nil
  | cons x found ih =>
    rw [violations] at h
    cases hv : e.violation relPath lines n x with
    | error f =>
      rw [hv] at h
      cases h
    | ok v =>
      cases hvs : e.violations relPath lines (n + 1) found with
      | error f =>
        rw [hv, hvs] at h
        cases h
      | ok ws =>
        rw [hv, hvs] at h
        cases h
        exact .cons ⟨n, hv⟩ (ih hvs)

/-- What a finding amounts to that has a severity and a wording, before it gets a number. -/
def stated (relPath : String) (lines : List String) (r : Rule) (f : Finding)
    (said : Severity × String) : Violation :=
  ⟨"", r.info.id, f.messageId, said.1, said.2, relPath, f.place.row + 1, f.place.column + 1,
    snippet lines (f.place.row + 1), f.suggestion, r.info.description, f.data⟩

theorem Reports.eq_numbered {r : Rule} {f : Finding} {v : Violation}
    (h : e.Reports relPath lines (r, f) v) :
    ∃ n said, e.wording r f = .ok said ∧ v = (stated relPath lines r f said).numbered n := by
  obtain ⟨n, hn⟩ := h
  rw [violation] at hn
  cases hw : e.wording r f with
  | error fault =>
    rw [hw] at hn
    cases hn
  | ok said =>
    rw [hw] at hn
    cases hn
    exact ⟨n, said, rfl, rfl⟩

theorem Reports.rule_eq {found : Rule × Finding} {v : Violation}
    (h : e.Reports relPath lines found v) : v.rule = found.1.info.id := by
  obtain ⟨n, said, -, rfl⟩ := h.eq_numbered
  rfl

theorem Reports.messageId_eq {found : Rule × Finding} {v : Violation}
    (h : e.Reports relPath lines found v) : v.messageId = found.2.messageId := by
  obtain ⟨n, said, -, rfl⟩ := h.eq_numbered
  rfl

theorem Reports.file_eq {found : Rule × Finding} {v : Violation}
    (h : e.Reports relPath lines found v) : v.file = relPath := by
  obtain ⟨n, said, -, rfl⟩ := h.eq_numbered
  rfl

theorem Reports.data_eq {found : Rule × Finding} {v : Violation}
    (h : e.Reports relPath lines found v) : v.data = found.2.data := by
  obtain ⟨n, said, -, rfl⟩ := h.eq_numbered
  rfl

/-- A violation that reports a finding of genuine calls comes from a rule among those called. -/
theorem exists_rule_of_mem_reports {rules : List Rule} {ctx : FileContext} {calls : List Call}
    {vs : List Violation} (hcalls : ∀ c ∈ calls, c.Genuine rules ctx)
    (h : List.Forall₂ (e.Reports relPath lines) (calls.flatMap Call.findings) vs) {v : Violation}
    (hv : v ∈ vs) : ∃ r ∈ rules, ∃ f, e.Reports relPath lines (r, f) v := by
  obtain ⟨⟨r, f⟩, hfound, hv⟩ := exists_of_mem_forall₂ h hv
  obtain ⟨c, hc, hfound⟩ := List.mem_flatMap.1 hfound
  have hrule : r = c.rule := Call.rule_of_mem_findings hfound
  exact ⟨r, hrule ▸ (hcalls c hc).1, f, hv⟩

theorem sameButNumber_of_reports {found : Rule × Finding} {v w : Violation}
    (hv : e.Reports relPath lines found v) (hw : e.Reports relPath lines found w) :
    v.SameButNumber w := by
  obtain ⟨r, f⟩ := found
  obtain ⟨m, said, hsaid, rfl⟩ := hv.eq_numbered
  obtain ⟨n, said', hsaid', rfl⟩ := hw.eq_numbered
  rw [hsaid] at hsaid'
  cases hsaid'
  exact Violation.sameButNumber_numbered _ m n

theorem forall₂_sameButNumber {found : List (Rule × Finding)} {vs ws : List Violation}
    (hv : List.Forall₂ (e.Reports relPath lines) found vs)
    (hw : List.Forall₂ (e.Reports relPath lines) found ws) :
    List.Forall₂ Violation.SameButNumber vs ws := by
  induction hv generalizing ws with
  | nil =>
    cases hw
    exact .nil
  | cons hx _ ih =>
    cases hw with
    | cons hy hys => exact .cons (sameButNumber_of_reports hx hy) (ih hys)

/-- A choice among the findings of a file is a choice among its violations. -/
theorem reports_filter {p : Rule × Finding → Bool} {q : Violation → Bool}
    (hpq : ∀ {found v}, e.Reports relPath lines found v → p found = q v)
    {found : List (Rule × Finding)} {vs : List Violation}
    (h : List.Forall₂ (e.Reports relPath lines) found vs) :
    List.Forall₂ (e.Reports relPath lines) (found.filter p) (vs.filter q) :=
  List.rel_filter (fun _ _ hxv => by simp only [hpq hxv]) h

/-! ## Reports on files -/

/-- Rules that declare what they report never stop the report on a file with a tree. -/
theorem exists_reportParsed (hrules : ∀ r ∈ e.rules, r.Declares) (ctx : FileContext) (d : Dialect)
    (tree : Tree) :
    ∃ report, e.reportParsed ctx d tree = .ok report ∧
      List.Forall₂ (e.Reports ctx.relPath ctx.lines)
        ((traceOf e.rules ctx tree).flatMap Call.findings) report.violations := by
  have hwords : ∀ found ∈ (traceOf e.rules ctx tree).flatMap Call.findings, e.Words found := by
    intro found hfound
    obtain ⟨c, hc, hfound⟩ := List.mem_flatMap.1 hfound
    exact e.words_of_genuine hrules (genuine_of_mem_traceOf hc) found hfound
  obtain ⟨vs, hvs⟩ := exists_violations hwords ctx.relPath ctx.lines 1
  exact ⟨_, by rw [reportParsed, hvs]; rfl, forall₂_reports hvs⟩

theorem exists_reportUnparsed (hrules : ∀ r ∈ e.rules, r.Declares) (ctx : FileContext)
    (first : Violation) (note : String) :
    ∃ vs log, e.reportUnparsed ctx first note = .ok ⟨first :: vs, log⟩ ∧
      List.Forall₂ (e.Reports ctx.relPath ctx.lines)
        ((traceUnparsed e.rules ctx).flatMap Call.findings) vs := by
  have hwords : ∀ found ∈ (traceUnparsed e.rules ctx).flatMap Call.findings, e.Words found := by
    intro found hfound
    obtain ⟨c, hc, hfound⟩ := List.mem_flatMap.1 hfound
    exact e.words_of_genuine hrules (genuine_of_mem_traceUnparsed hc) found hfound
  obtain ⟨vs, hvs⟩ := exists_violations hwords ctx.relPath ctx.lines 2
  exact ⟨vs, _, by rw [reportUnparsed, hvs]; rfl, forall₂_reports hvs⟩

end Engine

end SliceLint
