import SliceLint.Rule.LiteralStyle
import SliceLint.Proofs.Text.Pieces
import Mathlib.Computability.Language
import Mathlib.Data.Finset.Card
import Mathlib.Data.List.TakeWhile

/-!
# The families of style values

**Languages** (`Family.language`). The values that a family accepts are a language, built from the
languages of numbers, units and calls (`Family.acceptsValue_iff`).

**Apart** (`Family.eq_color_of_mem`, `Family.eq_zIndex_of_mem`). A colour has a hash or a
parenthesis, and no other value has one. A whole number has nothing but digits, and every other
value has a unit. So a value of one of these two families belongs to no other family.

**Several families** (`families_partition`). The three families that are left all accept lengths,
and two of them nothing else. A property and a value belong to several families only where the
value is a length and the property has words of several of these three.
-/

namespace SliceLint.StyleValue

open Text

/-! ## Languages -/

/-- Decimal digits. -/
def digitRuns : Language Char := {cs : List Char | ∀ c ∈ cs, isDecimal c = true}

/-- Decimal digits, at least one. -/
def digits : Language Char := {cs : List Char | cs ≠ [] ∧ cs ∈ digitRuns}

/-- Numbers without a sign, whole or with a part behind the point. -/
def numbers : Language Char := digits * (1 + {['.']} * digits)

/-- The units of length. -/
def units : Language Char := {['p', 'x'], ['r', 'e', 'm'], ['e', 'm']}

/-- Numbers with a unit of length. -/
def lengths : Language Char := numbers * units

/-- The digits other than zero. -/
def leadingDigits : Language Char := {cs : List Char | ∃ c, '1' ≤ c ∧ c ≤ '9' ∧ cs = [c]}

/-- Percentages that start with a digit other than zero. -/
def percentages : Language Char := leadingDigits * digitRuns * {['%']}

/-- From three to eight hexadecimal digits. -/
def hexRuns : Language Char :=
  {cs : List Char | 3 ≤ cs.length ∧ cs.length ≤ 8 ∧ ∀ c ∈ cs, isHex c = true}

/-- The colour functions, up to their parenthesis. -/
def colorFunctions : List String := ["rgb(", "rgba(", "hsl(", "hsla("]

/-- The beginnings of calls of colour functions. -/
def colorCalls : Language Char := {cs : List Char | ∃ word ∈ colorFunctions, cs = word.toList}

/-- Texts within a line. -/
def lineTexts : Language Char := {cs : List Char | '\n' ∉ cs}

/-- Hexadecimal digits after a hash, and calls of colour functions that are closed on their line. -/
def colors : Language Char := {['#']} * hexRuns + colorCalls * lineTexts * {[')']}

/-- The end of a value, where a newline may stand. -/
def lastEnd : Language Char := 1 + {['\n']}

/-- The values of a family. -/
def Family.language : Family → Language Char
  | color => ⊤ * colors * ⊤
  | spacing => (lengths + percentages) * lastEnd
  | typography | borderRadius => lengths * lastEnd
  | zIndex => digits * lastEnd

/-! ## Characters of a language -/

/-- The words have only characters that meet a condition. -/
def Within (P : Char → Prop) (l : Language Char) : Prop := ∀ cs ∈ l, ∀ c ∈ cs, P c

/-- Every word has a character that meets a condition. -/
def Marked (P : Char → Prop) (l : Language Char) : Prop := ∀ cs ∈ l, ∃ c ∈ cs, P c

section Characters

variable {P Q : Char → Prop} {l m : Language Char}

theorem Within.mono (h : Within P l) (hPQ : ∀ c, P c → Q c) : Within Q l :=
  fun cs hcs c hc => hPQ c (h cs hcs c hc)

theorem Within.mul (hl : Within P l) (hm : Within P m) : Within P (l * m) := by
  intro cs hcs
  obtain ⟨front, hfront, back, hback, rfl⟩ := Language.mem_mul.1 hcs
  exact List.forall_mem_append.2 ⟨hl front hfront, hm back hback⟩

theorem Within.add (hl : Within P l) (hm : Within P m) : Within P (l + m) :=
  fun cs hcs => hcs.elim (hl cs) (hm cs)

theorem within_singleton {word : List Char} (h : ∀ c ∈ word, P c) : Within P {word} := by
  rintro cs rfl
  exact h

theorem within_one : Within P 1 := by
  rintro cs rfl
  exact fun _ hc => absurd hc List.not_mem_nil

theorem Marked.mul_left (hl : Marked P l) (m : Language Char) : Marked P (l * m) := by
  intro cs hcs
  obtain ⟨front, hfront, back, -, rfl⟩ := Language.mem_mul.1 hcs
  obtain ⟨c, hc, hP⟩ := hl front hfront
  exact ⟨c, List.mem_append_left _ hc, hP⟩

theorem Marked.mul_right (l : Language Char) (hm : Marked P m) : Marked P (l * m) := by
  intro cs hcs
  obtain ⟨front, -, back, hback, rfl⟩ := Language.mem_mul.1 hcs
  obtain ⟨c, hc, hP⟩ := hm back hback
  exact ⟨c, List.mem_append_right _ hc, hP⟩

theorem Marked.add (hl : Marked P l) (hm : Marked P m) : Marked P (l + m) :=
  fun cs hcs => hcs.elim (hl cs) (hm cs)

theorem marked_singleton {word : List Char} (h : ∃ c ∈ word, P c) : Marked P {word} := by
  rintro cs rfl
  exact h

theorem Within.notMem (hl : Within P l) (hm : Marked (fun c => ¬ P c) m) {cs : List Char}
    (hcs : cs ∈ m) : cs ∉ l := by
  intro hmem
  obtain ⟨c, hc, hP⟩ := hm cs hcs
  exact hP (hl cs hmem c hc)

end Characters

theorem within_lastEnd {P : Char → Prop} (h : P '\n') : Within P lastEnd :=
  within_one.add (within_singleton (by simpa using h))

/-- The characters of numbers and units. -/
def IsValueChar (c : Char) : Prop := isDecimal c = true ∨ c ∈ ['.', 'p', 'x', 'r', 'e', 'm', '%']

theorem not_isValueChar {c : Char} (hc : c ∈ ['#', '(', '\n']) : ¬ IsValueChar c := by
  unfold IsValueChar
  simp only [List.mem_cons, List.not_mem_nil, or_false] at hc
  rcases hc with rfl | rfl | rfl <;> decide

theorem within_digitRuns : Within IsValueChar digitRuns := fun _ hcs c hc => .inl (hcs c hc)

theorem within_digits : Within IsValueChar digits := fun cs hcs => within_digitRuns cs hcs.2

theorem within_lengths : Within IsValueChar lengths := by
  have hpart : Within IsValueChar ({['.']} * digits) :=
    (within_singleton (by simp [IsValueChar])).mul within_digits
  refine (within_digits.mul (within_one.add hpart)).mul ?_
  rintro cs (rfl | rfl | rfl) <;> simp [IsValueChar]

theorem within_percentages : Within IsValueChar percentages := by
  have hlead : Within IsValueChar leadingDigits := by
    rintro cs ⟨c, hlow, hhigh, rfl⟩ d hd
    obtain rfl := List.mem_singleton.1 hd
    have hdigit : d.isDigit = true := by
      rw [Char.isDigit, Bool.and_eq_true, decide_eq_true_eq, decide_eq_true_eq]
      exact ⟨UInt32.le_trans (by decide) hlow, hhigh⟩
    exact .inl (by rw [isDecimal, hdigit, Bool.true_or])
  exact (hlead.mul within_digitRuns).mul (within_singleton (by simp [IsValueChar]))

/-! ## Numbers and units -/

/-- A run of characters is taken off where no further character is of its kind. -/
theorem takeWhile_run {p : Char → Bool} {run rest : List Char} (hrun : ∀ c ∈ run, p c = true)
    (hrest : ∀ c ∈ rest.head?, p c = false) :
    (run ++ rest).takeWhile p = run ∧ (run ++ rest).dropWhile p = rest := by
  rw [List.takeWhile_append_of_pos hrun, List.dropWhile_append_of_pos hrun]
  cases rest with
  | nil => exact ⟨List.append_nil run, rfl⟩
  | cons c cs =>
    have hc : ¬ p c = true := Bool.eq_false_iff.1 (hrest c rfl)
    rw [List.takeWhile_cons_of_neg hc, List.dropWhile_cons_of_neg hc, List.append_nil]
    exact ⟨rfl, rfl⟩

theorem takeWhile_isDecimal_mem {cs : List Char} (h : cs.takeWhile isDecimal ≠ []) :
    cs.takeWhile isDecimal ∈ digits :=
  ⟨h, fun _ hc => List.mem_takeWhile_imp hc⟩

theorem exists_of_afterNumber? {cs rest : List Char} (h : afterNumber? cs = some rest) :
    ∃ number ∈ numbers, number ++ rest = cs := by
  have hcs : cs.takeWhile isDecimal ++ cs.dropWhile isDecimal = cs :=
    List.takeWhile_append_dropWhile
  rw [afterNumber?] at h
  split at h
  · exact absurd h (by simp)
  · rename_i hwhole
    rw [List.isEmpty_iff] at hwhole
    have hdigits := takeWhile_isDecimal_mem hwhole
    have halone : cs.takeWhile isDecimal ∈ numbers :=
      Language.mem_mul.2 ⟨_, hdigits, [], .inl rfl, List.append_nil _⟩
    split at h
    · rename_i part hrest
      split at h
      · obtain rfl := Option.some.inj h
        exact ⟨_, halone, hcs⟩
      · rename_i hpart
        rw [List.isEmpty_iff] at hpart
        obtain rfl := Option.some.inj h
        have hpoint : '.' :: part.takeWhile isDecimal ∈ {['.']} * digits :=
          Language.mem_mul.2 ⟨['.'], rfl, _, takeWhile_isDecimal_mem hpart, rfl⟩
        refine ⟨_, Language.mem_mul.2 ⟨_, hdigits, _, .inr hpoint, rfl⟩, ?_⟩
        rw [List.append_assoc, List.cons_append, List.takeWhile_append_dropWhile, ← hrest, hcs]
    · obtain rfl := Option.some.inj h
      exact ⟨_, halone, hcs⟩

/-- A number is read to its end where neither a digit nor a point follows. -/
theorem afterNumber?_append {number rest : List Char} (hnumber : number ∈ numbers)
    (hrest : ∀ c ∈ rest.head?, isDecimal c = false ∧ c ≠ '.') :
    afterNumber? (number ++ rest) = some rest := by
  obtain ⟨whole, ⟨hwhole, hdigits⟩, tail, htail, rfl⟩ := Language.mem_mul.1 hnumber
  have hend : ∀ c ∈ rest.head?, isDecimal c = false := fun c hc => (hrest c hc).1
  rw [afterNumber?, List.append_assoc]
  rcases htail with rfl | htail
  · obtain ⟨htake, hdrop⟩ := takeWhile_run hdigits hend
    rw [List.nil_append, htake, hdrop, if_neg (by simpa using hwhole)]
    split
    · exact absurd rfl (hrest '.' rfl).2
    · rfl
  · obtain ⟨_, rfl, part, ⟨hpart, hparts⟩, rfl⟩ := Language.mem_mul.1 htail
    have hpoint : ∀ c ∈ (['.'] ++ part ++ rest).head?, isDecimal c = false := by
      rintro c ⟨⟩
      decide
    obtain ⟨htake, hdrop⟩ := takeWhile_run hdigits hpoint
    obtain ⟨htakePart, hdropPart⟩ := takeWhile_run hparts hend
    rw [htake, hdrop, if_neg (by simpa using hwhole)]
    simp only [List.cons_append, List.nil_append]
    rw [htakePart, hdropPart, if_neg (by simpa using hpart)]

theorem isLength_iff {cs : List Char} : isLength cs = true ↔ cs ∈ lengths := by
  constructor
  · intro h
    rw [isLength] at h
    split at h
    · rename_i rest hrest
      obtain ⟨number, hnumber, rfl⟩ := exists_of_afterNumber? hrest
      refine Language.mem_mul.2 ⟨number, hnumber, rest, ?_, rfl⟩
      rw [Bool.or_eq_true, Bool.or_eq_true, beq_iff_eq, beq_iff_eq, beq_iff_eq, or_assoc] at h
      exact h
    · exact absurd h (by simp)
  · intro h
    obtain ⟨number, hnumber, unit, hunit, rfl⟩ := Language.mem_mul.1 h
    have hhead : ∀ c ∈ unit.head?, isDecimal c = false ∧ c ≠ '.' := by
      rcases hunit with rfl | rfl | rfl <;> rintro c ⟨⟩ <;> decide
    rw [isLength, afterNumber?_append hnumber hhead]
    rcases hunit with rfl | rfl | rfl <;> rfl

theorem isPercentage_iff {cs : List Char} : isPercentage cs = true ↔ cs ∈ percentages := by
  cases cs with
  | nil =>
    refine ⟨fun h => absurd h (by simp [isPercentage]), fun h => ?_⟩
    obtain ⟨_, -, _, rfl, h⟩ := Language.mem_mul.1 h
    exact absurd h (by simp)
  | cons c rest =>
    rw [isPercentage, Bool.and_eq_true, Bool.and_eq_true, decide_eq_true_eq, decide_eq_true_eq,
      beq_iff_eq]
    constructor
    · rintro ⟨⟨hlow, hhigh⟩, hrest⟩
      refine Language.mem_mul.2 ⟨_, Language.mem_mul.2 ⟨[c], ⟨c, hlow, hhigh, rfl⟩,
        rest.takeWhile isDecimal, fun _ hd => List.mem_takeWhile_imp hd, rfl⟩, ['%'], rfl, ?_⟩
      rw [List.append_assoc, ← hrest, List.takeWhile_append_dropWhile, List.singleton_append]
    · intro h
      obtain ⟨_, hfront, _, rfl, hcs⟩ := Language.mem_mul.1 h
      obtain ⟨_, ⟨d, hlow, hhigh, rfl⟩, run, hrun, rfl⟩ := Language.mem_mul.1 hfront
      obtain ⟨rfl, rfl⟩ := List.cons.inj hcs
      have hpercent : ∀ c ∈ ['%'].head?, isDecimal c = false := by
        rintro c ⟨⟩
        decide
      exact ⟨⟨hlow, hhigh⟩, (takeWhile_run hrun hpercent).2⟩

theorem isWholeNumber_iff {cs : List Char} : isWholeNumber cs = true ↔ cs ∈ digits := by
  rw [isWholeNumber, Bool.and_eq_true, List.all_eq_true, Bool.not_eq_true',
    List.isEmpty_eq_false_iff]
  rfl

/-- A value belongs to a language when it does without the newline at its end. -/
theorem withoutNewline_mem_iff {l : Language Char} (hl : Within IsValueChar l) {cs : List Char} :
    withoutNewline cs ∈ l ↔ cs ∈ l * lastEnd := by
  rw [lastEnd, mul_add, mul_one, Language.mem_add, Language.mem_mul, withoutNewline]
  split
  · rename_i hlast
    have hcs : cs.dropLast ++ ['\n'] = cs := List.dropLast_append_getLast? _ hlast
    constructor
    · exact fun h => .inr ⟨_, h, _, rfl, hcs⟩
    · rintro (h | ⟨line, hline, _, rfl, rfl⟩)
      · exact absurd (hl cs h '\n' (List.mem_of_getLast? hlast)) (not_isValueChar (by decide))
      · rwa [List.dropLast_concat]
  · rename_i hlast
    constructor
    · exact .inl
    · rintro (h | ⟨line, -, _, rfl, rfl⟩)
      · exact h
      · exact absurd (List.getLast?_concat ..) hlast

/-! ## Colours -/

theorem closesOnLine_iff {cs : List Char} :
    closesOnLine cs = true ↔ ∃ word ∈ lineTexts * {[')']}, word <+: cs := by
  rw [closesOnLine, List.contains_iff_mem]
  constructor
  · intro h
    obtain ⟨body, rest, hbody⟩ := List.append_of_mem h
    have hline : '\n' ∉ cs.takeWhile (· != '\n') := fun hn => by
      simpa using List.mem_takeWhile_imp hn
    have hword : body ++ [')'] <+: cs.takeWhile (· != '\n') :=
      ⟨rest, by rw [hbody, List.append_assoc, List.singleton_append]⟩
    refine ⟨_, Language.mem_mul.2 ⟨body, fun hn => hline ?_, _, rfl, rfl⟩,
      hword.trans (List.takeWhile_prefix _)⟩
    exact hbody ▸ List.mem_append_left _ hn
  · rintro ⟨_, hword, rest, rfl⟩
    obtain ⟨body, hbody, _, rfl, rfl⟩ := Language.mem_mul.1 hword
    have hline : ∀ c ∈ body ++ [')'], (c != '\n') = true := by
      intro c hc
      rw [bne_iff_ne]
      rintro rfl
      rcases List.mem_append.1 hc with hc | hc
      · exact hbody hc
      · exact absurd hc (by decide)
    rw [List.takeWhile_append_of_pos hline]
    exact List.mem_append_left _ (List.mem_append_right _ List.mem_cons_self)

/-- A call starts a text when its word does and it is closed on its line. -/
theorem call_iff {word : String} {cs : List Char} :
    (word.toList.isPrefixOf cs && closesOnLine (cs.drop word.length)) = true ↔
      ∃ color ∈ {word.toList} * lineTexts * {[')']}, color <+: cs := by
  rw [Bool.and_eq_true, List.isPrefixOf_iff_prefix, closesOnLine_iff, mul_assoc]
  constructor
  · rintro ⟨⟨rest, rfl⟩, tail, htail, hprefix⟩
    rw [← String.length_toList, List.drop_left] at hprefix
    exact ⟨_, Language.mem_mul.2 ⟨_, rfl, tail, htail, rfl⟩,
      (List.prefix_append_right_inj _).2 hprefix⟩
  · rintro ⟨_, hcolor, rest, rfl⟩
    obtain ⟨_, rfl, tail, htail, rfl⟩ := Language.mem_mul.1 hcolor
    rw [List.append_assoc, ← String.length_toList, List.drop_left]
    exact ⟨List.prefix_append _ _, tail, htail, List.prefix_append _ _⟩

/-- A hash with three hexadecimal digits starts a text when one with up to eight does. -/
theorem hex_iff {cs : List Char} :
    ((cs.take 3).takeWhile isHex).length = 3 ↔ ∃ run ∈ hexRuns, run <+: cs := by
  constructor
  · intro h
    have hthree : (cs.take 3).takeWhile isHex = cs.take 3 :=
      (List.takeWhile_prefix isHex).eq_of_length_le (by rw [h]; exact List.length_take_le 3 cs)
    refine ⟨cs.take 3, ⟨?_, ?_, List.takeWhile_eq_self_iff.1 hthree⟩, List.take_prefix 3 cs⟩
    · rw [← hthree, h]
    · exact (List.length_take_le 3 cs).trans (by decide)
  · rintro ⟨run, ⟨hthree, -, hhex⟩, rest, rfl⟩
    rw [List.take_append_of_le_length hthree,
      List.takeWhile_eq_self_iff.2 fun c hc => hhex c (List.mem_of_mem_take hc)]
    exact List.length_take_of_le hthree

theorem mem_calls_iff {cs : List Char} :
    cs ∈ colorCalls * lineTexts * {[')']} ↔
      ∃ word ∈ colorFunctions, cs ∈ {word.toList} * lineTexts * {[')']} := by
  simp only [mul_assoc]
  constructor
  · intro h
    obtain ⟨_, ⟨word, hword, rfl⟩, tail, htail, rfl⟩ := Language.mem_mul.1 h
    exact ⟨word, hword, Language.mem_mul.2 ⟨_, rfl, tail, htail, rfl⟩⟩
  · rintro ⟨word, hword, h⟩
    obtain ⟨_, rfl, tail, htail, rfl⟩ := Language.mem_mul.1 h
    exact Language.mem_mul.2 ⟨_, ⟨word, hword, rfl⟩, tail, htail, rfl⟩

theorem not_prefix_hash {word : String} (hword : word ∈ colorFunctions) (rest : List Char) :
    ¬ word.toList <+: '#' :: rest := by
  revert word
  simp [colorFunctions]

theorem startsColor_iff {cs : List Char} :
    startsColor cs = true ↔ ∃ color ∈ colors, color <+: cs := by
  unfold startsColor
  dsimp only
  split
  · rename_i rest
    rw [beq_iff_eq, hex_iff]
    constructor
    · rintro ⟨run, hrun, hprefix⟩
      exact ⟨'#' :: run, .inl (Language.mem_mul.2 ⟨['#'], rfl, run, hrun, rfl⟩),
        List.cons_prefix_cons.2 ⟨rfl, hprefix⟩⟩
    · rintro ⟨_, hcolor | hcolor, hprefix⟩
      · obtain ⟨_, rfl, run, hrun, rfl⟩ := Language.mem_mul.1 hcolor
        exact ⟨run, hrun, (List.cons_prefix_cons.1 hprefix).2⟩
      · -- no call starts with a hash
        obtain ⟨word, hword, hcall⟩ := mem_calls_iff.1 hcolor
        rw [mul_assoc] at hcall
        obtain ⟨_, rfl, tail, -, rfl⟩ := Language.mem_mul.1 hcall
        exact absurd ((List.prefix_append _ _).trans hprefix) (not_prefix_hash hword rest)
  · -- without a hash it is one of the calls that starts here
    rename_i hhash
    have hany : (∃ color ∈ colors, color <+: cs) ↔ ∃ word ∈ colorFunctions,
        ∃ color ∈ {word.toList} * lineTexts * {[')']}, color <+: cs := by
      constructor
      · rintro ⟨color, hcolor | hcolor, hprefix⟩
        · obtain ⟨_, rfl, run, -, rfl⟩ := Language.mem_mul.1 hcolor
          obtain ⟨rest, rfl⟩ := hprefix
          exact absurd rfl (hhash (run ++ rest))
        · obtain ⟨word, hword, hcall⟩ := mem_calls_iff.1 hcolor
          exact ⟨word, hword, color, hcall, hprefix⟩
      · rintro ⟨word, hword, color, hcall, hprefix⟩
        exact ⟨color, .inr (mem_calls_iff.2 ⟨word, hword, hcall⟩), hprefix⟩
    simp only [hany, ← call_iff]
    simp [colorFunctions, or_assoc]

theorem hasColor_iff {cs : List Char} :
    hasColor cs = true ↔ ∃ color ∈ colors, color <:+: cs := by
  induction cs with
  | nil =>
    simp only [List.infix_nil, ← List.prefix_nil, ← startsColor_iff]
    rfl
  | cons c cs ih =>
    rw [hasColor, Bool.or_eq_true, startsColor_iff, ih]
    simp only [List.infix_cons_iff, and_or_left, exists_or]

/-! ## What a family accepts -/

theorem Family.acceptsValue_iff {f : Family} {cs : List Char} :
    f.acceptsValue cs = true ↔ cs ∈ f.language := by
  have hlengths : isLength (withoutNewline cs) = true ↔ cs ∈ lengths * lastEnd :=
    isLength_iff.trans (withoutNewline_mem_iff within_lengths)
  cases f with
  | color =>
    refine hasColor_iff.trans ⟨?_, fun h => ?_⟩
    · rintro ⟨color, hcolor, before, after, rfl⟩
      exact Language.mem_mul.2
        ⟨_, Language.mem_mul.2 ⟨before, trivial, color, hcolor, rfl⟩, after, trivial, rfl⟩
    · obtain ⟨_, hfront, after, -, rfl⟩ := Language.mem_mul.1 h
      obtain ⟨before, -, color, hcolor, rfl⟩ := Language.mem_mul.1 hfront
      exact ⟨color, hcolor, before, after, rfl⟩
  | spacing =>
    rw [acceptsValue, Bool.or_eq_true, hlengths, isPercentage_iff,
      withoutNewline_mem_iff within_percentages, language, add_mul]
    rfl
  | typography => exact hlengths
  | borderRadius => exact hlengths
  | zIndex => exact isWholeNumber_iff.trans (withoutNewline_mem_iff within_digits)

/-! ## Families that share no value -/

/-- A colour has a character that no other value has. -/
theorem marked_color :
    Marked (fun c => ¬ (IsValueChar c ∨ c = '\n')) Family.color.language := by
  have hhash : Marked (fun c => ¬ (IsValueChar c ∨ c = '\n')) {['#']} :=
    marked_singleton ⟨'#', by decide, not_or.2 ⟨not_isValueChar (by decide), by decide⟩⟩
  have hcalls : Marked (fun c => ¬ (IsValueChar c ∨ c = '\n')) colorCalls := by
    rintro cs ⟨word, hword, rfl⟩
    refine ⟨'(', ?_, not_or.2 ⟨not_isValueChar (by decide), by decide⟩⟩
    revert word
    decide
  exact (((hhash.mul_left _).add ((hcalls.mul_left _).mul_left _)).mul_right _).mul_left _

theorem Family.eq_color_of_mem {f : Family} {cs : List Char} (hcolor : cs ∈ color.language)
    (hf : cs ∈ f.language) : f = color := by
  by_contra hne
  have hend : Within (fun c => IsValueChar c ∨ c = '\n') lastEnd := within_lastEnd (.inr rfl)
  have hlengths := (within_lengths.mono fun _ => Or.inl).mul hend
  have hvalue : Within (fun c => IsValueChar c ∨ c = '\n') f.language := by
    cases f with
    | color => exact absurd rfl hne
    | spacing => exact ((within_lengths.add within_percentages).mono fun _ => Or.inl).mul hend
    | typography => exact hlengths
    | borderRadius => exact hlengths
    | zIndex => exact (within_digits.mono fun _ => Or.inl).mul hend
  exact hvalue.notMem marked_color hcolor hf

theorem Family.eq_zIndex_of_mem {f : Family} {cs : List Char} (hzIndex : cs ∈ zIndex.language)
    (hf : cs ∈ f.language) : f = zIndex := by
  by_contra hne
  have hdigits : Within (fun c => isDecimal c = true ∨ c = '\n') digits :=
    fun _ hcs c hc => .inl (hcs.2 c hc)
  have hwhole := hdigits.mul (within_lastEnd (.inr rfl))
  have hunits : Marked (fun c => ¬ (isDecimal c = true ∨ c = '\n')) units := by
    rintro cs (rfl | rfl | rfl)
    · exact ⟨'x', by decide, by decide⟩
    · exact ⟨'m', by decide, by decide⟩
    · exact ⟨'m', by decide, by decide⟩
  have hpercent : Marked (fun c => ¬ (isDecimal c = true ∨ c = '\n')) {['%']} :=
    marked_singleton ⟨'%', by decide, by decide⟩
  have hlengths := (hunits.mul_right numbers).mul_left lastEnd
  cases f with
  | color => exact absurd (eq_color_of_mem hf hzIndex) (by decide)
  | spacing =>
    exact hwhole.notMem (((hunits.mul_right _).add (hpercent.mul_right _)).mul_left _) hf hzIndex
  | typography => exact hwhole.notMem hlengths hf hzIndex
  | borderRadius => exact hwhole.notMem hlengths hf hzIndex
  | zIndex => exact hne rfl

/-! ## Families that share values -/

/-- The property has a word of the family in its name. -/
def Family.Names (f : Family) (property : String) : Prop :=
  ∃ word ∈ f.keywords, word.toList <:+: property.toList

/-- The families that accept lengths. -/
def Family.ofLengths : List Family := [spacing, typography, borderRadius]

variable {f g : Family} {property value : String}

theorem Family.covers_iff :
    f.covers property value = true ↔ f.Names property ∧ value.toList ∈ f.language := by
  rw [covers, Bool.and_eq_true, acceptsValue_iff, List.any_eq_true]
  simp only [contains, occurs_iff_infix, Names]

theorem Family.eq_spacing_or_language_eq (hf : f ∈ ofLengths) :
    f = spacing ∨ f.language = typography.language := by
  cases f with
  | spacing => exact .inl rfl
  | typography => exact .inr rfl
  | borderRadius => exact .inr rfl
  | _ => exact absurd hf (by decide)

theorem Family.mem_language_of_mem_ofLengths (hf : f ∈ ofLengths) {cs : List Char}
    (h : cs ∈ typography.language) : cs ∈ f.language := by
  rcases eq_spacing_or_language_eq hf with rfl | hlanguage
  · rw [language, add_mul]
    exact .inl h
  · rwa [hlanguage]

theorem Family.mem_ofLengths_of_ne {cs : List Char} (hf : cs ∈ f.language) (hg : cs ∈ g.language)
    (hne : g ≠ f) : f ∈ ofLengths := by
  cases f with
  | color => exact absurd (eq_color_of_mem hf hg) hne
  | zIndex => exact absurd (eq_zIndex_of_mem hf hg) hne
  | _ => decide

/-- Several families share a value exactly when it is a length, for families of lengths. -/
theorem Family.mem_languages_iff {cs : List Char} (hne : f ≠ g) :
    cs ∈ f.language ∧ cs ∈ g.language ↔
      f ∈ ofLengths ∧ g ∈ ofLengths ∧ cs ∈ typography.language := by
  constructor
  · rintro ⟨hf, hg⟩
    have hfl := mem_ofLengths_of_ne hf hg hne.symm
    have hgl := mem_ofLengths_of_ne hg hf hne
    refine ⟨hfl, hgl, ?_⟩
    -- one of two different families is not the one that has percentages too
    rcases eq_spacing_or_language_eq hfl with hspacing | hlanguage
    · rcases eq_spacing_or_language_eq hgl with hspacing' | hlanguage
      · exact absurd (hspacing.trans hspacing'.symm) hne
      · rwa [hlanguage] at hg
    · rwa [hlanguage] at hf
  · rintro ⟨hf, hg, h⟩
    exact ⟨mem_language_of_mem_ofLengths hf h, mem_language_of_mem_ofLengths hg h⟩

/-! ## Findings of one pair -/

/-- The families that a property and a value belong to. -/
def covering (property value : String) : Finset Family :=
  (Family.all.filter fun f => f.covers property value).toFinset

theorem mem_covering :
    f ∈ covering property value ↔ f.Names property ∧ value.toList ∈ f.language := by
  rw [covering, List.mem_toFinset, List.mem_filter, Family.covers_iff]
  exact and_iff_right (by cases f <;> decide)

theorem length_checkMember {member : Tree}
    (h : LiteralStyle.literalPair? member = some (property, value)) :
    (LiteralStyle.checkMember member).length = (covering property value).card := by
  have hnodup : Family.all.Nodup := by decide
  rw [LiteralStyle.checkMember, h, covering, List.toFinset_card_of_nodup (hnodup.filter _)]
  exact List.length_map ..

theorem one_lt_card_covering : 1 < (covering property value).card ↔
    value.toList ∈ Family.typography.language ∧
      ∃ f ∈ Family.ofLengths, ∃ g ∈ Family.ofLengths,
        f ≠ g ∧ f.Names property ∧ g.Names property := by
  rw [Finset.one_lt_card]
  constructor
  · rintro ⟨f, hf, g, hg, hne⟩
    rw [mem_covering] at hf hg
    obtain ⟨hfl, hgl, hvalue⟩ := (Family.mem_languages_iff hne).1 ⟨hf.2, hg.2⟩
    exact ⟨hvalue, f, hfl, g, hgl, hne, hf.1, hg.1⟩
  · rintro ⟨hvalue, f, hfl, g, hgl, hne, hf, hg⟩
    obtain ⟨hfv, hgv⟩ := (Family.mem_languages_iff hne).2 ⟨hfl, hgl, hvalue⟩
    exact ⟨f, mem_covering.2 ⟨hf, hfv⟩, g, mem_covering.2 ⟨hg, hgv⟩, hne⟩

theorem card_covering_le : (covering property value).card ≤ 3 := by
  rcases le_or_gt (covering property value).card 1 with h | h
  · exact h.trans (by decide)
  · have hsub : covering property value ⊆ Family.ofLengths.toFinset := by
      intro f hf
      obtain ⟨g, hg, hne⟩ := Finset.exists_mem_ne h f
      rw [mem_covering] at hf hg
      exact List.mem_toFinset.2 (Family.mem_ofLengths_of_ne hf.2 hg.2 hne)
    exact Finset.card_le_card hsub

/-- The values of the families are languages. A colour and a whole number belong to no other
family. The values of font sizes are those of radii and are values of spacing. One pair has at most
three findings, and it has more than one exactly when its value is a value of font sizes and its
property has words of several of these three families. -/
theorem families_partition (property value : String) :
    (∀ f : Family, f.acceptsValue value.toList = true ↔ value.toList ∈ f.language) ∧
      (∀ f : Family, Family.color.covers property value = true →
        f.covers property value = true → f = .color) ∧
      (∀ f : Family, Family.zIndex.covers property value = true →
        f.covers property value = true → f = .zIndex) ∧
      (Family.typography.acceptsValue value.toList = true ↔
        Family.borderRadius.acceptsValue value.toList = true) ∧
      (Family.typography.acceptsValue value.toList = true →
        Family.spacing.acceptsValue value.toList = true) ∧
      ∀ member : Tree, LiteralStyle.literalPair? member = some (property, value) →
        (LiteralStyle.checkMember member).length ≤ 3 ∧
          (1 < (LiteralStyle.checkMember member).length ↔
            Family.typography.acceptsValue value.toList = true ∧
              ∃ f ∈ Family.ofLengths, ∃ g ∈ Family.ofLengths,
                f ≠ g ∧ f.Names property ∧ g.Names property) := by
  refine ⟨fun _ => Family.acceptsValue_iff, fun f hcolor hf => ?_, fun f hzIndex hf => ?_, Iff.rfl,
    fun h => ?_, fun member hmember => ?_⟩
  · exact Family.eq_color_of_mem (Family.covers_iff.1 hcolor).2 (Family.covers_iff.1 hf).2
  · exact Family.eq_zIndex_of_mem (Family.covers_iff.1 hzIndex).2 (Family.covers_iff.1 hf).2
  · rw [Family.acceptsValue_iff] at h ⊢
    exact Family.mem_language_of_mem_ofLengths (by decide) h
  · rw [length_checkMember hmember, Family.acceptsValue_iff]
    exact ⟨card_covering_le, one_lt_card_covering⟩

example : covering "font-size-padding-border-radius" "1px" = Family.ofLengths.toFinset := by decide

end SliceLint.StyleValue
