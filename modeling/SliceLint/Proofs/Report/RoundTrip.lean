import SliceLint.Proofs.Report.JsonReading
import SliceLint.Proofs.Table
import Mathlib.Data.List.Basic
import Mathlib.Data.List.Forall2
import Mathlib.Data.List.TakeWhile
import Mathlib.Data.Nat.Digits.Defs

/-!
# Documents and their texts

A document whose objects have no key twice is read back from the text that it is written as
(`read?_written`). Each kind of value is read back in front of whatever follows it; a number needs
that no digit follows. The proof goes along the document. The bound on repetitions is kept above the
number of characters, which falls with every value that a value holds.

The documents of results have no key twice, so the results of a run are read back from their text
(`json_roundTrip`). They are read back but for what the document leaves out (`document_eq_iff`).
-/

namespace SliceLint

namespace JsonDocument

/-! ## Texts -/

theorem hexDigit?_digitChar {d : Nat} (h : d < 16) : hexDigit? (Nat.digitChar d) = some d := by
  revert d
  decide

theorem codeUnit?_hexDigits {n : Nat} (h : n < 65536) (rest : List Char) :
    codeUnit? (Text.hexDigits 4 n ++ rest) = some (n, rest) := by
  have hdigit : ∀ m : Nat, hexDigit? (Nat.digitChar (m % 16)) = some (m % 16) := fun m =>
    hexDigit?_digitChar (Nat.mod_lt m (by decide))
  have hn : ((n / 16 / 16 / 16 % 16 * 16 + n / 16 / 16 % 16) * 16 + n / 16 % 16) * 16 + n % 16 =
      n := by omega
  simp only [Text.hexDigits, List.nil_append, List.cons_append, codeUnit?,
    hdigit, Option.bind_eq_bind, Option.bind_some, Option.pure_def, hn]

theorem numbered?_hexDigits {c : Char} (h : c.toNat < 32) (rest : List Char) :
    numbered? (Text.hexDigits 4 c.toNat ++ rest) = some (c, rest) := by
  have hhigh : isHighSurrogate c.toNat = false := by
    simp only [isHighSurrogate, Bool.and_eq_false_iff, decide_eq_false_iff_not]
    omega
  have hlow : isLowSurrogate c.toNat = false := by
    simp only [isLowSurrogate, Bool.and_eq_false_iff, decide_eq_false_iff_not]
    omega
  simp [numbered?, codeUnit?_hexDigits (by omega : c.toNat < 65536), hhigh, hlow]

theorem character?_plain {c : Char} (hslash : c ≠ '\\') (hcontrol : ¬ c.toNat < 32)
    (rest : List Char) : character? (c :: rest) = some (c, rest) := by
  unfold character?
  split
  · rename_i heq
    exact absurd (List.cons.inj heq).1 hslash
  · rename_i heq
    exact absurd (List.cons.inj heq).1 hslash
  · rename_i heq
    obtain ⟨rfl, rfl⟩ := List.cons.inj heq
    simp [hslash, hcontrol]
  · rename_i heq
    cases heq

/-- A character is read back from the form that it has inside a text. -/
theorem character?_escaped (c : Char) (rest : List Char) :
    character? (escaped c ++ rest) = some (c, rest) := by
  unfold escaped
  split
  · rename_i hquote
    simp only [Bool.or_eq_true, beq_iff_eq] at hquote
    rcases hquote with rfl | rfl <;> rfl
  rename_i hquote
  simp only [Bool.or_eq_true, beq_iff_eq, not_or] at hquote
  iterate 5
    split
    · rename_i hc
      rw [eq_of_beq hc]
      rfl
  split
  · rename_i hcontrol
    exact numbered?_hexDigits hcontrol rest
  · rename_i hcontrol
    exact character?_plain hquote.2 hcontrol rest

/-- Inside a text no character looks like its end. -/
theorem exists_cons_escaped (c : Char) : ∃ d ds, escaped c = d :: ds ∧ d ≠ '"' := by
  unfold escaped
  split_ifs with hquote
  case neg =>
    simp only [Bool.or_eq_true, beq_iff_eq, not_or] at hquote
    exact ⟨c, [], rfl, hquote.1⟩
  all_goals exact ⟨'\\', _, rfl, by decide⟩

theorem characters?_escaped (cs : List Char) (rest : List Char) {fuel : Nat}
    (h : cs.length < fuel) :
    characters? fuel (cs.flatMap escaped ++ '"' :: rest) = some (cs, rest) := by
  induction cs generalizing fuel with
  | nil =>
    obtain ⟨fuel, rfl⟩ := Nat.exists_eq_add_one.2 h
    rfl
  | cons c cs ih =>
    obtain ⟨fuel, rfl⟩ := Nat.exists_eq_add_one.2 (Nat.zero_lt_of_lt h)
    rw [List.flatMap_cons, List.append_assoc, characters?]
    · rw [character?_escaped]
      simp [ih (Nat.lt_of_succ_lt_succ h)]
    · obtain ⟨d, ds, hd, hne⟩ := exists_cons_escaped c
      intro tail heq
      rw [hd] at heq
      exact hne (List.cons.inj heq).1

/-! ## Numbers -/

/-- No digit stands in front. -/
def NoDigitAhead (rest : List Char) : Prop := ∀ c ∈ rest.head?, c.isDigit = false

theorem eq_zero_of_head?_toDigits {n : Nat} (h : (Nat.toDigits 10 n).head? = some '0') : n = 0 := by
  induction n using Nat.strongRecOn with
  | ind n ih =>
    rw [Nat.toDigits_eq_if (by decide)] at h
    split at h
    · rename_i hn
      have hdigit : ∀ m < 10, Nat.digitChar m = '0' → m = 0 := by decide
      exact hdigit n hn (Option.some.inj h)
    · cases hdigits : Nat.toDigits 10 (n / 10) with
      | nil => exact absurd hdigits Nat.toDigits_ne_nil
      | cons d ds =>
        rw [hdigits] at h
        have hrest := ih (n / 10) (by omega) (hdigits ▸ h)
        omega

theorem natural?_toDigits (n : Nat) {rest : List Char} (h : NoDigitAhead rest) :
    natural? (Nat.toDigits 10 n ++ rest) = some (n, rest) := by
  have hdigits : ∀ c ∈ Nat.toDigits 10 n, c.isDigit = true := fun c hc =>
    Nat.isDigit_of_mem_toDigits (by decide) (by decide) hc
  have hstop : rest.takeWhile Char.isDigit = [] ∧ rest.dropWhile Char.isDigit = rest := by
    cases rest with
    | nil => exact ⟨rfl, rfl⟩
    | cons c rest =>
      have hc := h c rfl
      simp [hc]
  have htake : (Nat.toDigits 10 n ++ rest).takeWhile Char.isDigit = Nat.toDigits 10 n := by
    rw [List.takeWhile_append_of_pos hdigits, hstop.1, List.append_nil]
  have hdrop : (Nat.toDigits 10 n ++ rest).dropWhile Char.isDigit = rest := by
    rw [List.dropWhile_append_of_pos hdigits, hstop.2]
  have hform : ¬ ((Nat.toDigits 10 n).isEmpty || (Nat.toDigits 10 n).head? == some '0' &&
      (Nat.toDigits 10 n).length != 1) = true := by
    simp only [Bool.or_eq_true, List.isEmpty_iff, Nat.toDigits_ne_nil, Bool.and_eq_true,
      beq_iff_eq, bne_iff_ne, false_or, not_and, not_not]
    intro hzero
    rw [eq_zero_of_head?_toDigits hzero]
    rfl
  simp only [natural?, htake, hdrop]
  rw [if_neg hform, Nat.ofDigitChars_ten_toDigits]

theorem exists_cons_toDigits (n : Nat) :
    ∃ d ds, Nat.toDigits 10 n = d :: ds ∧ d.isDigit = true := by
  cases hdigits : Nat.toDigits 10 n with
  | nil => exact absurd hdigits Nat.toDigits_ne_nil
  | cons d ds =>
    have hmem : d ∈ Nat.toDigits 10 n := by
      rw [hdigits]
      exact List.mem_cons_self
    exact ⟨d, ds, rfl, Nat.isDigit_of_mem_toDigits (by decide) (by decide) hmem⟩

/-- A number starts with its sign or a digit, and with nothing else. -/
theorem exists_cons_signed (n : Int) :
    ∃ c cs, signed n = c :: cs ∧ ∀ other : Char, other.isDigit = false → other ≠ '-' → c ≠ other := by
  obtain ⟨d, ds, hd, hdigit⟩ := exists_cons_toDigits n.natAbs
  rw [signed, hd]
  split
  · exact ⟨'-', d :: ds, rfl, fun _ _ hne => hne.symm⟩
  · refine ⟨d, ds, rfl, fun other hother _ heq => ?_⟩
    rw [← heq, hdigit] at hother
    cases hother

theorem integer?_signed (n : Int) {rest : List Char} (h : NoDigitAhead rest) :
    integer? (signed n ++ rest) = some (n, rest) := by
  rw [signed]
  split
  · rename_i hn
    have habs : -(n.natAbs : Int) = n := by omega
    rw [List.append_assoc, List.singleton_append, integer?, natural?_toDigits _ h, Option.map_some]
    simp only [habs]
  · rename_i hn
    have habs : (n.natAbs : Int) = n := by omega
    rw [List.nil_append, integer?, natural?_toDigits _ h, Option.map_some]
    · simp only [habs]
    · obtain ⟨d, ds, hd, hdigit⟩ := exists_cons_toDigits n.natAbs
      intro tail heq
      rw [hd] at heq
      rw [(List.cons.inj heq).1] at hdigit
      exact absurd hdigit (by decide)

/-! ## Documents -/

/-- No object has a key twice. -/
inductive HasDistinctKeys : JsonDocument → Prop
  | number (n : Int) : HasDistinctKeys (.number n)
  | text (s : String) : HasDistinctKeys (.text s)
  | list {items : List JsonDocument} : (∀ item ∈ items, HasDistinctKeys item) →
      HasDistinctKeys (.list items)
  | object {fields : List (String × JsonDocument)} : (fields.map Prod.fst).Nodup →
      (∀ field ∈ fields, HasDistinctKeys field.2) → HasDistinctKeys (.object fields)

theorem merged_of_nodup {fields : List (String × JsonDocument)}
    (h : (fields.map Prod.fst).Nodup) : merged fields = fields := foldl_putEntry_of_nodup h

theorem skipBlanks_of_not {c : Char} (cs : List Char) (h : isBlank c = false) :
    skipBlanks (c :: cs) = c :: cs := by
  rw [skipBlanks, List.dropWhile_cons_of_neg (by rw [h]; exact Bool.false_ne_true)]

theorem skipBlanks_lineStart (depth : Nat) {c : Char} (cs : List Char) (h : isBlank c = false) :
    skipBlanks (lineStart depth ++ c :: cs) = c :: cs := by
  have hblank : ∀ b ∈ lineStart depth, isBlank b = true := by
    intro b hb
    rw [lineStart, List.mem_cons, List.mem_replicate] at hb
    rcases hb with rfl | ⟨-, rfl⟩ <;> rfl
  rw [skipBlanks, List.dropWhile_append_of_pos hblank]
  exact skipBlanks_of_not cs h

/-- A document starts with no blank and with no bracket that closes a list. -/
theorem exists_cons_written (depth : Nat) (document : JsonDocument) :
    ∃ c cs, document.written depth = c :: cs ∧ isBlank c = false ∧ c ≠ ']' := by
  cases document with
  | number n =>
    obtain ⟨c, cs, hc, hother⟩ := exists_cons_signed n
    refine ⟨c, cs, by rw [written, hc], ?_, hother ']' rfl (by decide)⟩
    simp only [isBlank, Bool.or_eq_false_iff, beq_eq_false_iff_ne]
    exact ⟨⟨⟨hother ' ' rfl (by decide), hother '\n' rfl (by decide)⟩,
      hother '\r' rfl (by decide)⟩, hother '\t' rfl (by decide)⟩
  | text s => exact ⟨'"', _, rfl, rfl, by decide⟩
  | list items => cases items <;> exact ⟨'[', _, rfl, rfl, by decide⟩
  | object fields => cases fields <;> exact ⟨'\x7b', _, rfl, rfl, by decide⟩

theorem skipBlanks_written (line depth : Nat) (document : JsonDocument) (rest : List Char) :
    skipBlanks (lineStart line ++ (document.written depth ++ rest)) =
      document.written depth ++ rest := by
  obtain ⟨c, cs, hc, hblank, -⟩ := exists_cons_written depth document
  rw [hc]
  exact skipBlanks_lineStart line (cs ++ rest) hblank

theorem noDigitAhead_lineStart (depth : Nat) (rest : List Char) :
    NoDigitAhead (lineStart depth ++ rest) := by
  rintro c ⟨⟩
  rfl

/-! ### Values -/

/-- A document is read back in front of anything that no number goes on with. -/
def IsReadBack (document : JsonDocument) : Prop :=
  ∀ depth fuel rest, (document.written depth).length ≤ fuel → NoDigitAhead rest →
    value? fuel (document.written depth ++ rest) = some (document, rest)

theorem isReadBack_number (n : Int) : IsReadBack (.number n) := by
  intro depth fuel rest hfuel hrest
  have hread := integer?_signed n hrest
  obtain ⟨c, cs, hc, hother⟩ := exists_cons_signed n
  rw [written, hc] at hfuel ⊢
  rw [hc] at hread
  obtain ⟨fuel, rfl⟩ := Nat.exists_eq_add_one.2 (Nat.lt_of_lt_of_le (Nat.succ_pos _) hfuel)
  rw [value?, hread, Option.map_some]
  · exact fun tail heq => hother '"' rfl (by decide) (List.cons.inj heq).1
  · exact fun tail heq => hother '[' rfl (by decide) (List.cons.inj heq).1
  · exact fun tail heq => hother '\x7b' rfl (by decide) (List.cons.inj heq).1

theorem length_le_escaped (cs : List Char) : cs.length ≤ (cs.flatMap escaped).length := by
  induction cs with
  | nil => exact Nat.le_refl 0
  | cons c cs ih =>
    obtain ⟨d, ds, hd, -⟩ := exists_cons_escaped c
    simp only [List.flatMap_cons, List.length_append, hd, List.length_cons]
    omega

theorem characters?_quoted (s : String) (rest : List Char) (fuel : Nat)
    (h : (quoted s).length ≤ fuel + 1) :
    ∃ body, quoted s = '"' :: body ∧ characters? fuel (body ++ rest) = some (s.toList, rest) := by
  have hlength := length_le_escaped s.toList
  refine ⟨s.toList.flatMap escaped ++ ['"'], rfl, ?_⟩
  simp only [quoted, List.cons_append, List.length_cons, List.length_append] at h
  rw [List.append_assoc, List.singleton_append]
  exact characters?_escaped s.toList rest (by omega)

theorem isReadBack_text (s : String) : IsReadBack (.text s) := by
  intro depth fuel rest hfuel _
  rw [written] at hfuel ⊢
  obtain ⟨fuel, rfl⟩ := Nat.exists_eq_add_one.2 (Nat.lt_of_lt_of_le (Nat.succ_pos _) hfuel)
  obtain ⟨body, hbody, hread⟩ := characters?_quoted s rest fuel hfuel
  rw [hbody, List.cons_append, value?, hread, Option.map_some]
  simp only [String.ofList_toList]

/-! ### Lists -/

theorem noDigitAhead_items (depth outer : Nat) (items : List JsonDocument) (rest : List Char) :
    NoDigitAhead (writtenItems depth items ++ (lineStart outer ++ rest)) := by
  cases items with
  | nil =>
    rw [writtenItems]
    exact noDigitAhead_lineStart outer rest
  | cons item items =>
    rw [writtenItems]
    rintro c ⟨⟩
    rfl

theorem items?_item {item : JsonDocument} (hitem : IsReadBack item) {depth fuel : Nat}
    {more : List Char} (hmore : NoDigitAhead more) (hfuel : (item.written depth).length ≤ fuel) :
    items? (fuel + 1) (item.written depth ++ more) =
      match skipBlanks more with
      | ']' :: rest => some ([item], rest)
      | ',' :: rest => (items? fuel (skipBlanks rest)).bind fun items =>
          some (item :: items.1, items.2)
      | _ => none := by
  rw [items?, hitem depth fuel more hfuel hmore]
  rfl

theorem items?_written {item : JsonDocument} {items : List JsonDocument}
    (h : ∀ x ∈ item :: items, IsReadBack x) (depth outer : Nat) (rest : List Char) (fuel : Nat)
    (hfuel : (item.written depth).length + (writtenItems depth items).length < fuel) :
    items? fuel (item.written depth ++
      (writtenItems depth items ++ (lineStart outer ++ ']' :: rest))) =
      some (item :: items, rest) := by
  induction items generalizing item fuel with
  | nil =>
    obtain ⟨fuel, rfl⟩ := Nat.exists_eq_add_one.2 (Nat.zero_lt_of_lt hfuel)
    have hend : skipBlanks (lineStart outer ++ ']' :: rest) = ']' :: rest :=
      skipBlanks_lineStart outer rest rfl
    rw [items?_item (h item List.mem_cons_self) (noDigitAhead_items depth outer [] _) (by omega),
      writtenItems, List.nil_append, hend]
    rfl
  | cons next items ih =>
    obtain ⟨hitem, hitems⟩ := List.forall_mem_cons.1 h
    obtain ⟨fuel, rfl⟩ := Nat.exists_eq_add_one.2 (Nat.zero_lt_of_lt hfuel)
    rw [items?_item hitem (noDigitAhead_items depth outer _ _) (by omega)]
    simp only [writtenItems, List.cons_append, List.append_assoc, List.length_cons,
      List.length_append] at hfuel ⊢
    have hnext := ih hitems fuel (by omega)
    have hcomma : ∀ cs, skipBlanks (',' :: cs) = ',' :: cs := fun cs => skipBlanks_of_not cs rfl
    simp only [hcomma, skipBlanks_written, hnext, Option.bind_some]

theorem isReadBack_list {items : List JsonDocument} (h : ∀ x ∈ items, IsReadBack x) :
    IsReadBack (.list items) := by
  intro depth fuel rest hfuel _
  cases items with
  | nil =>
    rw [written] at hfuel ⊢
    obtain ⟨fuel, rfl⟩ := Nat.exists_eq_add_one.2 (Nat.lt_of_lt_of_le (Nat.succ_pos _) hfuel)
    rfl
  | cons item items =>
    rw [written] at hfuel ⊢
    obtain ⟨fuel, rfl⟩ := Nat.exists_eq_add_one.2 (Nat.lt_of_lt_of_le (Nat.succ_pos _) hfuel)
    simp only [List.cons_append, List.append_assoc, List.length_cons, List.length_append,
      List.nil_append] at hfuel ⊢
    have hitems := items?_written h (depth + 1) depth rest fuel (by omega)
    obtain ⟨c, cs, hc, -, hbracket⟩ := exists_cons_written (depth + 1) item
    rw [value?, skipBlanks_written, hc]
    rw [hc] at hitems
    split
    · rename_i heq
      exact absurd (List.cons.inj heq).1 hbracket
    · rw [hitems, Option.map_some]

/-! ### Objects -/

theorem noDigitAhead_fields (depth outer : Nat) (fields : List (String × JsonDocument))
    (rest : List Char) : NoDigitAhead (writtenFields depth fields ++ (lineStart outer ++ rest)) := by
  cases fields with
  | nil =>
    rw [writtenFields]
    exact noDigitAhead_lineStart outer rest
  | cons field fields =>
    rw [writtenFields]
    rintro c ⟨⟩
    rfl

theorem skipBlanks_quoted (line : Nat) (key : String) (rest : List Char) :
    skipBlanks (lineStart line ++ (quoted key ++ rest)) = quoted key ++ rest :=
  skipBlanks_lineStart line _ rfl

theorem field_readBack (key : String) {value : JsonDocument} (hvalue : IsReadBack value)
    (depth fuel : Nat) {more : List Char} (hmore : NoDigitAhead more)
    (hfuel : (quoted key).length + (value.written depth).length ≤ fuel) :
    ∃ body, quoted key = '"' :: body ∧
      characters? fuel (body ++ (':' :: ' ' :: (value.written depth ++ more))) =
        some (key.toList, ':' :: ' ' :: (value.written depth ++ more)) ∧
      skipBlanks (' ' :: (value.written depth ++ more)) = value.written depth ++ more ∧
      value? fuel (value.written depth ++ more) = some (value, more) := by
  obtain ⟨body, hbody, hkey⟩ := characters?_quoted key
    (':' :: ' ' :: (value.written depth ++ more)) fuel (by omega)
  refine ⟨body, hbody, hkey, ?_, hvalue depth fuel more (by omega) hmore⟩
  obtain ⟨c, cs, hc, hfront, -⟩ := exists_cons_written depth value
  rw [hc]
  exact skipBlanks_of_not (cs ++ more) hfront

theorem fields?_written {key : String} {value : JsonDocument}
    {fields : List (String × JsonDocument)}
    (h : ∀ field ∈ (key, value) :: fields, IsReadBack field.2) (depth outer : Nat)
    (rest : List Char) (fuel : Nat)
    (hfuel : (quoted key).length + (value.written depth).length +
      (writtenFields depth fields).length < fuel) :
    fields? fuel (quoted key ++ (':' :: ' ' :: (value.written depth ++
      (writtenFields depth fields ++ (lineStart outer ++ '\x7d' :: rest))))) =
      some ((key, value) :: fields, rest) := by
  have hcolon : ∀ cs, skipBlanks (':' :: cs) = ':' :: cs := fun cs => skipBlanks_of_not cs rfl
  have hcomma : ∀ cs, skipBlanks (',' :: cs) = ',' :: cs := fun cs => skipBlanks_of_not cs rfl
  have hend : skipBlanks (lineStart outer ++ '\x7d' :: rest) = '\x7d' :: rest :=
    skipBlanks_lineStart outer rest rfl
  induction fields generalizing key value fuel with
  | nil =>
    have hvalue : IsReadBack value := h _ List.mem_cons_self
    obtain ⟨fuel, rfl⟩ := Nat.exists_eq_add_one.2 (Nat.zero_lt_of_lt hfuel)
    obtain ⟨body, hbody, hkey, hblank, hvalue⟩ := field_readBack key hvalue depth fuel
      (noDigitAhead_fields depth outer [] ('\x7d' :: rest)) (by omega)
    rw [writtenFields, List.nil_append] at hkey hblank hvalue ⊢
    rw [hbody, List.cons_append, fields?, hkey]
    simp only [Option.bind_eq_bind, Option.bind_some, hcolon, hblank, hvalue, hend,
      Option.pure_def, String.ofList_toList]
  | cons next fields ih =>
    obtain ⟨nextKey, nextValue⟩ := next
    have hvalue : IsReadBack value := h _ List.mem_cons_self
    have hfields : ∀ field ∈ (nextKey, nextValue) :: fields, IsReadBack field.2 :=
      fun field hmem => h field (List.mem_cons_of_mem _ hmem)
    obtain ⟨fuel, rfl⟩ := Nat.exists_eq_add_one.2 (Nat.zero_lt_of_lt hfuel)
    obtain ⟨body, hbody, hkey, hblank, hvalue⟩ := field_readBack key hvalue depth fuel
      (noDigitAhead_fields depth outer ((nextKey, nextValue) :: fields) ('\x7d' :: rest))
      (by omega)
    simp only [writtenFields, List.cons_append, List.append_assoc, List.nil_append,
      List.length_cons, List.length_append] at hfuel hkey hblank hvalue ⊢
    have hnext := ih hfields fuel (by omega)
    rw [hbody, List.cons_append, fields?, hkey]
    simp only [Option.bind_eq_bind, Option.bind_some, hcolon, hblank, hvalue, hcomma,
      skipBlanks_quoted, hnext, Option.pure_def, String.ofList_toList]

theorem isReadBack_object {fields : List (String × JsonDocument)}
    (hkeys : (fields.map Prod.fst).Nodup) (h : ∀ field ∈ fields, IsReadBack field.2) :
    IsReadBack (.object fields) := by
  intro depth fuel rest hfuel _
  cases fields with
  | nil =>
    rw [written] at hfuel ⊢
    obtain ⟨fuel, rfl⟩ := Nat.exists_eq_add_one.2 (Nat.lt_of_lt_of_le (Nat.succ_pos _) hfuel)
    rfl
  | cons field fields =>
    obtain ⟨key, value⟩ := field
    rw [written] at hfuel ⊢
    obtain ⟨fuel, rfl⟩ := Nat.exists_eq_add_one.2 (Nat.lt_of_lt_of_le (Nat.succ_pos _) hfuel)
    simp only [List.cons_append, List.append_assoc, List.length_cons, List.length_append,
      List.nil_append] at hfuel ⊢
    have hfields := fields?_written h (depth + 1) depth rest fuel (by omega)
    obtain ⟨body, hbody⟩ : ∃ body, quoted key = '"' :: body := ⟨_, rfl⟩
    rw [value?, skipBlanks_quoted, hbody, List.cons_append]
    rw [hbody, List.cons_append] at hfields
    split
    · rename_i heq
      exact absurd (List.cons.inj heq).1 (by decide)
    · simp only [hfields, Option.map_some, merged_of_nodup hkeys]

/-! ### Whole texts -/

theorem isReadBack_of_hasDistinctKeys {document : JsonDocument} (h : document.HasDistinctKeys) :
    IsReadBack document := by
  induction h with
  | number n => exact isReadBack_number n
  | text s => exact isReadBack_text s
  | list _ ih => exact isReadBack_list ih
  | object hkeys _ ih => exact isReadBack_object hkeys ih

/-- **Reading back.** A document whose objects have no key twice is read back from its text, with
any blanks behind it. -/
theorem read?_written {document : JsonDocument} (h : document.HasDistinctKeys) (depth : Nat)
    (blanks : List Char) (hblanks : ∀ c ∈ blanks, isBlank c = true) :
    read? (String.ofList (document.written depth ++ blanks)) = some document := by
  obtain ⟨c, cs, hc, hfront, -⟩ := exists_cons_written depth document
  have hstart : skipBlanks (document.written depth ++ blanks) =
      document.written depth ++ blanks := by
    rw [hc]
    exact skipBlanks_of_not (cs ++ blanks) hfront
  have hend : skipBlanks blanks = [] := List.dropWhile_eq_nil_iff.2 hblanks
  have hahead : NoDigitAhead blanks := by
    intro b hb
    have hblank := hblanks b (List.mem_of_mem_head? hb)
    simp only [isBlank, Bool.or_eq_true, beq_iff_eq] at hblank
    rcases hblank with ((rfl | rfl) | rfl) | rfl <;> rfl
  have hread := isReadBack_of_hasDistinctKeys h depth
    ((document.written depth ++ blanks).length + 1) blanks
    (by rw [List.length_append]; omega) hahead
  rw [read?, String.toList_ofList, hstart, hread]
  simp only [hend, List.isEmpty_nil, if_true]

end JsonDocument

/-! ## Results -/

theorem Violation.hasDistinctKeys_document (v : Violation) : v.document.HasDistinctKeys := by
  refine .object (by simp) ?_
  simp [JsonDocument.HasDistinctKeys.text, JsonDocument.HasDistinctKeys.number]

theorem Summary.hasDistinctKeys_document (s : Summary) : s.document.HasDistinctKeys := by
  have hrules : (JsonDocument.list (s.rules.map .text)).HasDistinctKeys := by
    refine .list fun item hitem => ?_
    obtain ⟨rule, -, rfl⟩ := List.mem_map.1 hitem
    exact .text rule
  refine .object (by simp) ?_
  simp [JsonDocument.HasDistinctKeys.text, JsonDocument.HasDistinctKeys.number, hrules]

theorem Results.hasDistinctKeys_document (r : Results) : r.document.HasDistinctKeys := by
  have hviolations : (JsonDocument.list (r.violations.map Violation.document)).HasDistinctKeys := by
    refine .list fun item hitem => ?_
    obtain ⟨v, -, rfl⟩ := List.mem_map.1 hitem
    exact v.hasDistinctKeys_document
  refine .object (by simp) ?_
  simp [hviolations, r.summary.hasDistinctKeys_document]

/-- Two violations that agree in all that a document shows. -/
def Violation.ShownAlike (v w : Violation) : Prop :=
  v.severity.name = w.severity.name ∧
    { v with messageId := w.messageId, severity := w.severity, data := w.data } = w

theorem Violation.document_eq_iff {v w : Violation} :
    v.document = w.document ↔ v.ShownAlike w := by
  obtain ⟨⟩ := v
  obtain ⟨⟩ := w
  simp only [Violation.document, ShownAlike, JsonDocument.object.injEq, List.cons.injEq,
    Prod.mk.injEq, JsonDocument.text.injEq, JsonDocument.number.injEq, Violation.mk.injEq]
  tauto

theorem Summary.document_inj {s t : Summary} : s.document = t.document ↔ s = t := by
  have htexts : Function.Injective (List.map JsonDocument.text) :=
    List.map_injective_iff.2 fun _ _ heq => JsonDocument.text.inj heq
  obtain ⟨⟩ := s
  obtain ⟨⟩ := t
  simp [Summary.document, htexts.eq_iff]

/-- A document tells the violations in their order and the totals. -/
theorem Results.document_eq_iff {r r' : Results} :
    r.document = r'.document ↔
      List.Forall₂ Violation.ShownAlike r.violations r'.violations ∧ r.summary = r'.summary := by
  have hviolations : r.violations.map Violation.document = r'.violations.map Violation.document ↔
      List.Forall₂ Violation.ShownAlike r.violations r'.violations := by
    rw [← List.forall₂_eq_eq_eq, List.forall₂_map_left_iff, List.forall₂_map_right_iff]
    simp only [Violation.document_eq_iff]
  simp [Results.document, hviolations, Summary.document_inj]

/-- **Round trip.** The results of a run are read back from their text as the document that they
are, also where a line break follows, as in the file that they are kept in. Results have one text
exactly if they have one document, that is, if their violations agree in order in all that is shown
and their totals agree. -/
theorem Results.json_roundTrip (r r' : Results) :
    JsonDocument.read? r.json = some r.document ∧
      JsonDocument.read? (r.json ++ "\n") = some r.document ∧
      (r.json = r'.json ↔ r.document = r'.document) ∧
      (r.document = r'.document ↔
        List.Forall₂ Violation.ShownAlike r.violations r'.violations ∧
          r.summary = r'.summary) := by
  have hread : ∀ r : Results, JsonDocument.read? r.json = some r.document := by
    intro r
    have hwritten := JsonDocument.read?_written r.hasDistinctKeys_document 0 []
      fun c hc => absurd hc List.not_mem_nil
    rwa [List.append_nil] at hwritten
  refine ⟨hread r, ?_, ⟨fun heq => ?_, fun heq => ?_⟩, Results.document_eq_iff⟩
  · have hline : r.json ++ "\n" = String.ofList (r.document.written 0 ++ ['\n']) := by
      simp [Results.json]
    rw [hline]
    refine JsonDocument.read?_written r.hasDistinctKeys_document 0 ['\n'] fun c hc => ?_
    rw [List.mem_singleton.1 hc]
    rfl
  · rw [← Option.some_inj, ← hread r, heq, hread r']
  · rw [Results.json, heq, Results.json]

end SliceLint
