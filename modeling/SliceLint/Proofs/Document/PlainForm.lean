import SliceLint.Document.Display
import SliceLint.Proofs.Text.Digits

/-!
# Words in plain form

A word (`IsWord`) can be written in one way only. Of all values of a document nothing but the text
itself has the word as its plain form (`Value.eq_text_of_plain`): a word has a letter that stands in
no number, date or time, it starts with no mark of bytes or brackets, and it is none of the few
values that are written in letters. The empty text is the one value that is written without any
character (`Value.plain_eq_empty_iff`).
-/

namespace SliceLint

/-! ## Numbers and dates -/

/-- What stands in numbers, dates and times beside digits. -/
def numberMarks : List Char := ['+', '-', '.', ':', ' ', 'e']

/-- A character that stands in no number, date or time. -/
structure IsLetter (c : Char) : Prop where
  not_digit : c.isDigit = false
  not_mark : c ∉ numberMarks

instance : DecidablePred IsLetter := fun c =>
  decidable_of_iff (c.isDigit = false ∧ c ∉ numberMarks)
    ⟨fun ⟨hd, hm⟩ => ⟨hd, hm⟩, fun ⟨hd, hm⟩ => ⟨hd, hm⟩⟩

section Letter

variable {c : Char}

theorem IsLetter.ne (h : IsLetter c) (mark : Char) (hmark : mark ∈ numberMarks) : c ≠ mark :=
  fun heq => h.not_mark (heq ▸ hmark)

variable (h : IsLetter c)

include h

theorem notMem_paddedNumber (size n : Nat) : c ∉ (paddedNumber size n).toList := by
  have hdigit := h.not_digit
  rw [paddedNumber, String.toList_ofList, List.mem_append, not_or]
  refine ⟨fun hmem => ?_, notMem_toDigits hdigit n⟩
  rw [List.eq_of_mem_replicate hmem] at hdigit
  cases hdigit

theorem Date.notMem_shown (d : Date) : c ∉ d.shown.toList := by
  simp [shown, notMem_paddedNumber h, h.ne '-' (by decide)]

theorem Moment.notMem_shownOffset (minutes : Int) : c ∉ (shownOffset minutes).toList := by
  have hcolon : c ≠ ':' := h.ne _ (by decide)
  rw [shownOffset]
  split <;> simp [notMem_paddedNumber h, hcolon, h.ne '+' (by decide), h.ne '-' (by decide)]

theorem Moment.notMem_shown (t : Moment) : c ∉ (t.shown " ").toList := by
  have hcolon : c ≠ ':' := h.ne _ (by decide)
  have hblank : c ≠ ' ' := h.ne _ (by decide)
  have hmicro : c ∉ (if t.microsecond == 0 then ""
      else "." ++ paddedNumber 6 t.microsecond).toList := by
    split <;> simp [notMem_paddedNumber h, h.ne '.' (by decide)]
  simp only [shown, String.toList_append, List.mem_append, not_or]
  refine ⟨⟨⟨⟨⟨⟨⟨⟨t.date.notMem_shown h, by simpa using hblank⟩, notMem_paddedNumber h _ _⟩,
    by simpa using hcolon⟩, notMem_paddedNumber h _ _⟩, by simpa using hcolon⟩,
    notMem_paddedNumber h _ _⟩, hmicro⟩, ?_⟩
  split
  · exact notMem_shownOffset h _
  · simp

namespace Binary64

theorem notMem_shortestDigits (m : Nat) (e : Int) : c ∉ (shortestDigits m e).1 := by
  intro hmem
  simp only [shortestDigits, List.mem_reverse] at hmem
  have hdigit := (List.dropWhile_sublist _).subset hmem
  exact notMem_toDigits h.not_digit _ (List.mem_reverse.1 hdigit)

theorem notMem_positional {digits : List Char} (hdigits : c ∉ digits) (point : Int) :
    c ∉ positional digits point := by
  have hzero : c ≠ '0' := fun heq => absurd (heq ▸ h.not_digit) (by decide)
  have hpoint : c ≠ '.' := h.ne _ (by decide)
  rw [positional]
  split
  · simp [hdigits, hzero, hpoint]
  · have hwhole : c ∉ digits.take point.toNat := fun hmem => hdigits (List.mem_of_mem_take hmem)
    have hpart : c ∉ digits.drop point.toNat := fun hmem => hdigits (List.mem_of_mem_drop hmem)
    simp only [List.mem_append, List.mem_cons, not_or]
    refine ⟨⟨hwhole, by simp [hzero]⟩, hpoint, ?_⟩
    split
    · simpa using hzero
    · exact hpart

theorem notMem_scientific {digits : List Char} (hdigits : c ∉ digits) (point : Int) :
    c ∉ scientific digits point := by
  have hpoint : c ≠ '.' := h.ne _ (by decide)
  have hzero : c ≠ '0' := fun heq => absurd (heq ▸ h.not_digit) (by decide)
  simp only [scientific, List.mem_append, not_or]
  refine ⟨⟨⟨?_, ?_⟩, by simp [hzero]⟩, notMem_toDigits h.not_digit _⟩
  · split
    · exact hdigits
    · simp_all
    · exact List.not_mem_nil
  · split <;> simp [h.ne 'e' (by decide), h.ne '+' (by decide),
      h.ne '-' (by decide)]

theorem notMem_shortest_finite (negative : Bool) (m : Nat) (e : Int) :
    c ∉ (finite negative m e).shortest.toList := by
  have hzero : c ≠ '0' := fun heq => absurd (heq ▸ h.not_digit) (by decide)
  have hsign : c ∉ (if negative then ['-'] else []) := by
    split <;> simp [h.ne '-' (by decide)]
  have hdigits := notMem_shortestDigits h m e
  rw [shortest, String.toList_ofList, List.mem_append, not_or]
  refine ⟨hsign, ?_⟩
  dsimp only
  split
  · simp [hzero, h.ne '.' (by decide)]
  split
  · exact notMem_positional h hdigits _
  · exact notMem_scientific h hdigits _

end Binary64

end Letter

theorem Binary64.shortest_ne_empty (x : Binary64) : x.shortest ≠ "" := by
  intro h
  cases x with
  | nan => exact absurd h (by decide)
  | infinite negative => exact absurd h (by cases negative <;> decide)
  | finite negative m e =>
    have hlist := congrArg String.toList h
    simp only [shortest, String.toList_ofList] at hlist
    obtain ⟨-, htext⟩ := List.append_eq_nil_iff.1 hlist
    split at htext
    · cases htext
    split at htext
    · simp only [positional] at htext
      split at htext <;> simp at htext
    · simp [scientific] at htext

/-! ## Words -/

/-- The plain forms, in letters, of values that are no texts. -/
def valueWords : List String := ["None", "True", "False", "nan", "inf", "-inf", "set()"]

/-- A word that no value but a text reads as. -/
structure IsWord (word : String) : Prop where
  letter : ∃ c ∈ word.toList, IsLetter c
  head : word.toList.head? ∉ [some 'b', some '[', some '(', some '\x7b']
  other : word ∉ valueWords

-- tests the characters of the word, where a search through all characters would do as well
instance : DecidablePred IsWord := fun word =>
  decidable_of_iff (word.toList.any (fun c => decide (IsLetter c)) = true ∧
      word.toList.head? ∉ [some 'b', some '[', some '(', some '\x7b'] ∧ word ∉ valueWords) <| by
    simp only [List.any_eq_true, decide_eq_true_eq]
    exact ⟨fun ⟨hl, hh, ho⟩ => ⟨hl, hh, ho⟩, fun ⟨hl, hh, ho⟩ => ⟨hl, hh, ho⟩⟩

namespace Value

theorem same_text_iff {k : Value} {s : String} : k.same (.text s) = true ↔ k = .text s := by
  cases k <;> simp [same, number?]

/-- **Words.** A value that reads as a word is the text of that word. -/
theorem eq_text_of_plain {v : Value} {word : String} (h : IsWord word) (hplain : v.plain = word) :
    v = .text word := by
  subst hplain
  obtain ⟨⟨c, hc, hletter⟩, hhead, hother⟩ := h
  cases v with
  | text s => rfl
  | null => exact absurd (by decide) hother
  | bool t => exact absurd (by cases t <;> decide) hother
  | int n =>
    exact absurd hc (notMem_toString_int hletter.not_digit (hletter.ne _ (by decide)) n)
  | float x =>
    cases x with
    | nan => exact absurd (by decide) hother
    | infinite negative => exact absurd (by cases negative <;> decide) hother
    | finite negative m e => exact absurd hc (Binary64.notMem_shortest_finite hletter negative m e)
  | date d => exact absurd hc (d.notMem_shown hletter)
  | moment t => exact absurd hc (t.notMem_shown hletter)
  | bytes bs => exact absurd (by simp [plain, exact, Text.quotedBytes]) hhead
  | list items => exact absurd (by simp [plain, exact]) hhead
  | tuple items => exact absurd (by simp [plain, exact]) hhead
  | set items =>
    have hset : (set items).plain = if items.isEmpty then "set()"
        else "\x7b" ++ ", ".intercalate (exactAll items) ++ "\x7d" := by simp [plain, exact]
    by_cases hitems : items.isEmpty
    · rw [hset, if_pos hitems] at hother
      exact absurd (by decide) hother
    · exact absurd (by simp [hset, hitems]) hhead
  | mapping entries => exact absurd (by simp [plain, exact]) hhead

theorem plain_eq_empty_iff {v : Value} : v.plain = "" ↔ v = .text "" := by
  constructor
  · intro h
    cases v with
    | text s => exact congrArg text h
    | null => exact absurd h (by decide)
    | bool b => exact absurd h (by cases b <;> decide)
    | int n => exact absurd h (toString_int_ne_empty n)
    | float x => exact absurd h x.shortest_ne_empty
    | date d => simp [plain, Date.shown] at h
    | moment t => simp [plain, Moment.shown] at h
    | bytes bs => simp [plain, exact, Text.quotedBytes] at h
    | list items => simp [plain, exact] at h
    | tuple items => simp [plain, exact] at h
    | set items =>
      simp only [plain, exact] at h
      split at h <;> simp at h
    | mapping entries => simp [plain, exact] at h
  · rintro rfl
    rfl

end Value

end SliceLint
