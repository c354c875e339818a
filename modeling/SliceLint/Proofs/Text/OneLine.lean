import SliceLint.Proofs.Text.Digits
import SliceLint.Text.Lines
import SliceLint.Text.Utf8

/-!
# Texts of one line

A text with a newline in it takes more than one line (`OneLine`). What is put together from texts of
one line is of one line, and so are numbers. A text in quotes is of one line, whatever it quotes,
because its newlines are escaped (`oneLine_quoted`).
-/

namespace SliceLint

/-- No newline stands in the text. -/
def OneLine (s : String) : Prop := '\n' ∉ s.toList

instance : DecidablePred OneLine := fun s => inferInstanceAs (Decidable ('\n' ∉ s.toList))

theorem oneLine_ofList {cs : List Char} : OneLine (String.ofList cs) ↔ '\n' ∉ cs := by
  rw [OneLine, String.toList_ofList]

@[simp] theorem oneLine_append {s t : String} : OneLine (s ++ t) ↔ OneLine s ∧ OneLine t := by
  simp only [OneLine, String.toList_append, List.mem_append, not_or]

theorem OneLine.of_subset {s t : String} (ht : OneLine t) (h : s.toList ⊆ t.toList) : OneLine s :=
  fun hmem => ht (h hmem)

theorem oneLine_join {sep : String} (hsep : OneLine sep) {parts : List String}
    (h : ∀ part ∈ parts, OneLine part) : OneLine (Text.join sep parts) := by
  induction parts with
  | nil => exact List.not_mem_nil
  | cons part parts ih =>
    obtain ⟨hpart, hparts⟩ := List.forall_mem_cons.1 h
    cases parts with
    | nil => simpa [Text.join] using hpart
    | cons next parts =>
      have hrest := ih hparts
      rw [Text.join] at hrest ⊢
      rw [String.intercalate_cons_cons, oneLine_append, oneLine_append]
      exact ⟨⟨hpart, hsep⟩, hrest⟩

theorem oneLine_toString_int (n : Int) : OneLine (toString n) :=
  notMem_toString_int rfl (by decide) n

@[simp] theorem oneLine_repr (n : Nat) : OneLine n.repr := oneLine_toString_int n

theorem notMem_hexDigits (digits n : Nat) : '\n' ∉ Text.hexDigits digits n := by
  have hdigit : ∀ m < 16, Nat.digitChar m ≠ '\n' := by decide
  induction digits generalizing n with
  | zero => exact List.not_mem_nil
  | succ digits ih =>
    rw [Text.hexDigits, List.mem_append, List.mem_singleton, not_or]
    exact ⟨ih (n / 16), (hdigit (n % 16) (Nat.mod_lt n (by decide))).symm⟩

theorem notMem_escaped (quote c : Char) (hquote : quote ≠ '\n') : '\n' ∉ Text.escaped quote c := by
  unfold Text.escaped
  split
  · rename_i hc
    have hne : c ≠ '\n' := by
      rintro rfl
      simp [hquote.symm] at hc
    simp [hne.symm]
  split
  · simp
  · rename_i hc
    have hne : c ≠ '\n' := by simpa using hc
    split_ifs <;> simp [hne.symm, notMem_hexDigits]

/-- **Quoted texts.** Whatever is put in quotes is of one line. -/
theorem oneLine_quoted (s : String) : OneLine (Text.quoted s) := by
  have hquote : Text.quoteOf s.toList ≠ '\n' := by
    unfold Text.quoteOf
    split <;> decide
  rw [Text.quoted, oneLine_ofList]
  simp only [List.mem_append, List.mem_cons, List.mem_flatMap, not_or, not_exists, not_and,
    List.not_mem_nil, not_false_eq_true, and_true]
  exact ⟨⟨hquote.symm, fun c _ => notMem_escaped _ c hquote⟩, hquote.symm⟩

theorem oneLine_utf8Fault (f : Text.Utf8Fault) : OneLine f.message := by
  have hreason : OneLine f.reason.message := by cases f.reason <;> decide
  unfold Text.Utf8Fault.message
  split_ifs <;> simp +decide [hreason, oneLine_ofList, notMem_hexDigits]

end SliceLint
