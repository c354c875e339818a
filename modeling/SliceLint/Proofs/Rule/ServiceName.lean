import SliceLint.Proofs.Text.Capital
import SliceLint.Proofs.Text.Pieces
import SliceLint.Rule.ServiceName
import Mathlib.Data.List.Basic

/-!
# Names that stand for services, and their accessors

**The name to report** (`flagged?_eq_some_iff`). Of an import that binds something, it is the first
binding that is no hook and mentions the keyword; if there is none and the specifier mentions the
keyword, it is the first binding that is no hook.

**Camel case** (`camelCaseList_camelCaseList`). A name in camel case has no separators left, and
stays as it is when it is put in camel case once more. Its accessor is that of the name.

**Accessors** (`isHookName_accessor`). Whether an accessor is a hook is told by the first character
of the name that is no separator: its capital form has to start with an ASCII capital or a digit.
Whatever the accessor is, it mentions the keyword if the name does (`mentions_accessor`).
-/

namespace SliceLint.ServiceName

open Text

/-! ## Keywords -/

/-- What a component takes from a hook. -/
inductive Dependency where
  | service
  | client
deriving DecidableEq, Repr

namespace Dependency

def keyword : Dependency → String
  | service => "service"
  | client => "client"

theorem isLower_of_mem_keyword (d : Dependency) : ∀ k ∈ d.keyword.toList, k.isLower = true := by
  have hall : d.keyword.toList.all Char.isLower = true := by cases d <;> rfl
  exact List.all_eq_true.1 hall

theorem keyword_ne_nil (d : Dependency) : d.keyword.toList ≠ [] := by
  cases d <;> decide +kernel

end Dependency

/-- The text has a piece that spells the keyword, in whatever case. -/
def Spells (keyword cs : List Char) : Prop := keyword <:+: cs.map Char.toLower

/-- A piece of the name spells the keyword, in whatever case. -/
def Mentions (keyword name : String) : Prop :=
  ∃ before word after, name.toList = before ++ word ++ after ∧
    word.map Char.toLower = keyword.toList

theorem mentions_iff_spells {keyword name : String} :
    mentions keyword name = true ↔ Spells keyword.toList name.toList := by
  rw [mentions, occurs_iff_infix, Spells]

theorem mentions_iff {keyword name : String} :
    mentions keyword name = true ↔ Mentions keyword name := by
  rw [mentions_iff_spells]
  constructor
  · rintro ⟨before, after, hname⟩
    obtain ⟨front, back, hchars, hfront, -⟩ := List.map_eq_append_iff.1 hname.symm
    obtain ⟨start, word, rfl, -, hword⟩ := List.map_eq_append_iff.1 hfront
    exact ⟨start, word, back, hchars, hword⟩
  · rintro ⟨before, word, after, hname, hword⟩
    refine ⟨before.map Char.toLower, after.map Char.toLower, ?_⟩
    rw [hname, List.map_append, List.map_append, hword]

/-! ## The name to report -/

/-- The name is the first of the names that meets the condition. -/
def IsFirst (p : String → Prop) (names : List String) (name : String) : Prop :=
  ∃ before after, names = before ++ name :: after ∧ p name ∧ ∀ b ∈ before, ¬ p b

/-- The name is the one to report for an import that binds something. -/
inductive Flagged (keyword segment : String) (bindings : List String) (name : String) : Prop where
  | mentioning : IsFirst (fun b => isHookName b = false ∧ Mentions keyword b) bindings name →
      Flagged keyword segment bindings name
  | standing : (∀ b ∈ bindings, isHookName b = false → ¬ Mentions keyword b) →
      Mentions keyword segment → IsFirst (fun b => isHookName b = false) bindings name →
      Flagged keyword segment bindings name

theorem find?_eq_some_iff_isFirst {p : String → Bool} {names : List String} {name : String} :
    names.find? p = some name ↔ IsFirst (fun b => p b = true) names name := by
  simp only [List.find?_eq_some_iff_append, IsFirst, Bool.not_eq_true', Bool.not_eq_true]
  exact ⟨fun ⟨hp, before, after, h, hbefore⟩ => ⟨before, after, h, hp, hbefore⟩,
    fun ⟨before, after, h, hp, hbefore⟩ => ⟨hp, before, after, h, hbefore⟩⟩

variable {keyword segment name : String} {bindings : List String}

theorem Flagged.exists_binding (h : Flagged keyword segment bindings name) :
    name ∈ bindings ∧ isHookName name = false := by
  cases h with
  | mentioning hfirst =>
    obtain ⟨before, after, rfl, ⟨hhook, -⟩, -⟩ := hfirst
    exact ⟨by simp, hhook⟩
  | standing _ _ hfirst =>
    obtain ⟨before, after, rfl, hhook, -⟩ := hfirst
    exact ⟨by simp, hhook⟩

theorem find?_concrete : (bindings.filter fun b => !isHookName b).find? (mentions keyword) =
    some name ↔ IsFirst (fun b => isHookName b = false ∧ Mentions keyword b) bindings name := by
  simp only [List.find?_filter, find?_eq_some_iff_isFirst, decide_eq_true_eq, Bool.not_eq_true',
    mentions_iff]

theorem head?_concrete : (bindings.filter fun b => !isHookName b).head? = some name ↔
    IsFirst (fun b => isHookName b = false) bindings name := by
  simp only [List.head?_filter, find?_eq_some_iff_isFirst, Bool.not_eq_true']

theorem find?_concrete_eq_none
    (h : (bindings.filter fun b => !isHookName b).find? (mentions keyword) = none) :
    ∀ b ∈ bindings, isHookName b = false → ¬ Mentions keyword b := by
  intro b hb hhook hmentions
  have hmem : b ∈ bindings.filter fun b => !isHookName b := by
    rw [List.mem_filter, hhook]
    exact ⟨hb, rfl⟩
  exact List.find?_eq_none.1 h b hmem (mentions_iff.2 hmentions)

theorem flagged?_of_unmentioned (hbindings : bindings ≠ [])
    (h : (bindings.filter fun b => !isHookName b).find? (mentions keyword) = none) :
    flagged? bindings segment keyword =
      if mentions keyword segment then (bindings.filter fun b => !isHookName b).head?
      else none := by
  simp only [flagged?, h]
  split
  · cases bindings.filter fun b => !isHookName b with
    | nil => rw [if_neg (by simpa using hbindings), List.head?_nil]
    | cons b rest => rfl
  · rfl

theorem flagged?_eq_some_iff (hbindings : bindings ≠ []) :
    flagged? bindings segment keyword = some name ↔ Flagged keyword segment bindings name := by
  cases hfind : (bindings.filter fun b => !isHookName b).find? (mentions keyword) with
  | some found =>
    have hfound : flagged? bindings segment keyword = some found := by simp only [flagged?, hfind]
    have hfirst := find?_concrete.1 hfind
    rw [hfound]
    constructor
    · rintro ⟨⟩
      exact .mentioning hfirst
    · rintro (hname | ⟨hnone, -, -⟩)
      · exact hfind.symm.trans (find?_concrete.2 hname)
      · obtain ⟨before, after, hsplit, ⟨hhook, hmentions⟩, -⟩ := hfirst
        exact absurd hmentions (hnone found (by simp [hsplit]) hhook)
  | none =>
    have hnone := find?_concrete_eq_none hfind
    rw [flagged?_of_unmentioned hbindings hfind, Option.ite_none_right_eq_some, mentions_iff,
      head?_concrete]
    constructor
    · exact fun ⟨hsegment, hfirst⟩ => .standing hnone hsegment hfirst
    · rintro (⟨before, after, hsplit, ⟨hhook, hmentions⟩, -⟩ | ⟨-, hsegment, hfirst⟩)
      · exact absurd hmentions (hnone name (by simp [hsplit]) hhook)
      · exact ⟨hsegment, hfirst⟩

theorem flagged?_of_hooks (hbindings : bindings ≠ [])
    (hhooks : ∀ b ∈ bindings, isHookName b = true) : flagged? bindings segment keyword = none := by
  rw [Option.eq_none_iff_forall_ne_some]
  intro name hname
  obtain ⟨hmem, hhook⟩ := ((flagged?_eq_some_iff hbindings).1 hname).exists_binding
  rw [hhooks name hmem] at hhook
  cases hhook

/-- The name to report mentions the keyword, or the specifier does. -/
theorem mentions_of_flagged? (h : flagged? bindings segment keyword = some name) :
    mentions keyword name = true ∨ mentions keyword segment = true := by
  simp only [flagged?] at h
  split at h
  · rename_i found hfound
    obtain rfl := Option.some.inj h
    exact Or.inl (List.find?_some hfound)
  · split at h
    · rename_i hsegment
      exact Or.inr hsegment
    · cases h

/-- Of an import that binds one name alone, this name is the one to report, unless it is a hook. -/
theorem flagged?_singleton (h : mentions keyword name = true ∨ mentions keyword segment = true) :
    flagged? [name] segment keyword = if isHookName name then none else some name := by
  cases hhook : isHookName name with
  | true => simp [flagged?, hhook]
  | false =>
    cases hname : mentions keyword name with
    | true => simp [flagged?, hhook, hname]
    | false => simp [flagged?, hhook, hname, h.resolve_left (by simp [hname])]

/-! ## Words -/

/-- A character between the words of a name. -/
def isSeparator (c : Char) : Bool := c == '-' || c == '_' || c == '.' || isSpace c

/-- A text without separators. -/
def Unbroken (cs : List Char) : Prop := ∀ c ∈ cs, isSeparator c = false

theorem wordsFrom_cons (current : List Char) (c : Char) (rest : List Char) :
    wordsFrom current (c :: rest) =
      if isSeparator c then
        if current.isEmpty then wordsFrom [] rest else current.reverse :: wordsFrom [] rest
      else wordsFrom (c :: current) rest := rfl

variable {current cs word : List Char}

theorem mem_wordsFrom (hcurrent : Unbroken current) (h : word ∈ wordsFrom current cs) :
    word ≠ [] ∧ Unbroken word := by
  induction cs generalizing current with
  | nil =>
    simp only [wordsFrom, List.isEmpty_iff, List.mem_ite_nil_left, List.mem_singleton] at h
    obtain ⟨hne, rfl⟩ := h
    exact ⟨by simpa using hne, by simpa [Unbroken] using hcurrent⟩
  | cons c rest ih =>
    rw [wordsFrom_cons] at h
    split at h
    · split at h
      · exact ih (by simp [Unbroken]) h
      · rename_i hne
        rcases List.mem_cons.1 h with rfl | h
        · exact ⟨by simpa using hne, by simpa [Unbroken] using hcurrent⟩
        · exact ih (by simp [Unbroken]) h
    · rename_i hc
      exact ih (List.forall_mem_cons.2 ⟨by simpa using hc, hcurrent⟩) h

theorem wordsFrom_of_unbroken (h : Unbroken cs) :
    wordsFrom current cs =
      if (current.reverse ++ cs).isEmpty then [] else [current.reverse ++ cs] := by
  induction cs generalizing current with
  | nil => simp [wordsFrom]
  | cons c rest ih =>
    obtain ⟨hc, hrest⟩ := List.forall_mem_cons.1 h
    rw [wordsFrom_cons, hc, if_neg Bool.false_ne_true, ih hrest, List.reverse_cons,
      List.append_assoc, List.singleton_append]

/-- Separators in front of a name belong to no word. -/
theorem wordsFrom_dropWhile (cs : List Char) :
    wordsFrom [] (cs.dropWhile isSeparator) = wordsFrom [] cs := by
  induction cs with
  | nil => rfl
  | cons c rest ih =>
    cases hc : isSeparator c with
    | true =>
      rw [List.dropWhile_cons_of_pos hc, ih, wordsFrom_cons, if_pos hc]
      rfl
    | false => rw [List.dropWhile_cons_of_neg (by simp [hc])]

/-- The word that has begun comes first. -/
theorem exists_wordsFrom_eq_cons (hcurrent : current ≠ []) (cs : List Char) :
    ∃ more rest, wordsFrom current cs = (current.reverse ++ more) :: rest := by
  induction cs generalizing current with
  | nil => exact ⟨[], [], by simp [wordsFrom, hcurrent]⟩
  | cons c rest ih =>
    rw [wordsFrom_cons]
    cases hc : isSeparator c with
    | true => exact ⟨[], wordsFrom [] rest, by simp [hcurrent]⟩
    | false =>
      obtain ⟨more, words, hwords⟩ := ih (List.cons_ne_nil c current)
      exact ⟨c :: more, words, by simp [hwords]⟩

/-! ## Camel case -/

theorem toNat_mem_of_isSeparator {c : Char} (h : isSeparator c = true) :
    c.toNat ∈ caselessCodes := by
  have heq (a b : Char) : a = b ↔ a.toNat = b.toNat := Char.toNat_inj.symm
  have hle (a b : Char) : a ≤ b ↔ a.toNat ≤ b.toNat := Iff.rfl
  simp only [isSeparator, isSpace, Bool.or_eq_true, Bool.and_eq_true, beq_iff_eq,
    decide_eq_true_eq, heq, hle, Char.reduceToNat] at h
  simp only [caselessCodes, List.mem_cons, List.not_mem_nil, or_false]
  omega

theorem unbroken_capitalize (h : Unbroken cs) : Unbroken (capitalize cs) := by
  cases cs with
  | nil => exact h
  | cons c rest =>
    obtain ⟨hc, hrest⟩ := List.forall_mem_cons.1 h
    intro u hu
    rcases List.mem_append.1 hu with hu | hu
    · by_contra hsep
      rw [Bool.not_eq_false] at hsep
      rw [eq_of_mem_capital hu (toNat_mem_of_isSeparator hsep)] at hsep
      exact absurd hsep (by simp [hc])
    · exact hrest u hu

theorem unbroken_camelCaseList (cs : List Char) : Unbroken (camelCaseList cs) := by
  have hwords : ∀ word ∈ wordsFrom [] cs, Unbroken word :=
    fun word hword => (mem_wordsFrom (by simp [Unbroken]) hword).2
  rw [camelCaseList]
  split
  · simp [Unbroken]
  · rename_i first rest hsplit
    rw [hsplit, List.forall_mem_cons] at hwords
    intro c hc
    rcases List.mem_append.1 hc with hc | hc
    · exact hwords.1 c hc
    · obtain ⟨word, hword, hc⟩ := List.mem_flatMap.1 hc
      exact unbroken_capitalize (hwords.2 word hword) c hc

theorem camelCaseList_of_unbroken (h : Unbroken cs) : camelCaseList cs = cs := by
  rw [camelCaseList, wordsFrom_of_unbroken h]
  cases cs <;> simp

theorem camelCaseList_camelCaseList (cs : List Char) :
    camelCaseList (camelCaseList cs) = camelCaseList cs :=
  camelCaseList_of_unbroken (unbroken_camelCaseList cs)

/-- A name in camel case starts with the first character of the name that is no separator. -/
theorem head?_camelCaseList (cs : List Char) :
    (camelCaseList cs).head? = (cs.dropWhile isSeparator).head? := by
  rw [camelCaseList, ← wordsFrom_dropWhile]
  cases hname : cs.dropWhile isSeparator with
  | nil => rfl
  | cons c rest =>
    have hc : isSeparator c = false := head?_dropWhile (by rw [hname, List.head?_cons])
    obtain ⟨more, words, hwords⟩ := exists_wordsFrom_eq_cons (List.cons_ne_nil c []) rest
    rw [wordsFrom_cons, hc, if_neg Bool.false_ne_true, hwords]
    rfl

/-! ## A trailing `service` -/

/-- A text that ends with `service`, in whatever case: what comes before, and the first two letters
of the end. -/
theorem exists_of_endsWithService (h : endsWithService cs = true) :
    ∃ front c e tail, cs = front ++ c :: e :: tail ∧ cs.take (cs.length - 7) = front ∧
      sameLetter 's' c = true ∧ sameLetter 'e' e = true ∧ tail.length = 5 := by
  simp only [endsWithService, Bool.and_eq_true, beq_iff_eq] at h
  obtain ⟨hlength, hletters⟩ := h
  have hsplit := List.take_append_drop (cs.length - 7) cs
  match htail : cs.drop (cs.length - 7) with
  | [] => simp [htail] at hlength
  | [_] => simp [htail] at hlength
  | c :: e :: tail =>
    rw [htail] at hlength hletters hsplit
    simp only [String.reduceToList, List.zip_cons_cons, List.all_cons, Bool.and_eq_true] at hletters
    exact ⟨_, c, e, tail, hsplit.symm, rfl, hletters.1, hletters.2.1, by simpa using hlength⟩

theorem eq_of_sameLetter_s {c : Char} (h : sameLetter 's' c = true) :
    c = 's' ∨ c = 'S' ∨ c = 'ſ' := by
  simpa [sameLetter, or_assoc] using h

theorem capital_of_sameLetter {c : Char} (h : sameLetter 's' c = true) : capital c = ['S'] := by
  rcases eq_of_sameLetter_s h with rfl | rfl | rfl <;> decide +kernel

theorem head?_capitalize_spellService (cs : List Char) :
    (capitalize (spellService cs)).head? = (capitalize cs).head? := by
  have hspelled : capitalize "Service".toList = "Service".toList := by decide +kernel
  rw [spellService]
  split
  · rename_i hends
    obtain ⟨front, c, e, tail, hcs, htake, hc, -, -⟩ := exists_of_endsWithService hends
    rw [htake, hcs]
    cases front with
    | nil =>
      rw [List.nil_append, List.nil_append, hspelled, capitalize, capital_of_sameLetter hc]
      rfl
    | cons first front =>
      obtain ⟨u, us, hu⟩ := List.exists_cons_of_ne_nil (capital_ne_nil first)
      simp [capitalize, hu]
  · rfl

/-! ## Accessors -/

/-- Capitalised, and without the separators in front, the name starts with an ASCII capital or a
digit. -/
def startsPlainly (name : String) : Bool :=
  (capitalize (name.toList.dropWhile isSeparator)).head?.any fun c => c.isUpper || c.isDigit

theorem head?_capitalize {cs cs' : List Char} (h : cs.head? = cs'.head?) :
    (capitalize cs).head? = (capitalize cs').head? := by
  cases cs with
  | nil =>
    cases cs' with
    | nil => rfl
    | cons c rest => cases h
  | cons c rest =>
    cases cs' with
    | nil => cases h
    | cons c' rest' =>
      obtain rfl := Option.some.inj h
      obtain ⟨u, us, hu⟩ := List.exists_cons_of_ne_nil (capital_ne_nil c)
      simp [capitalize, hu]

theorem isHookName_ofList_append (cs : List Char) :
    isHookName (String.ofList ("use".toList ++ cs)) =
      cs.head?.any fun c => c.isUpper || c.isDigit := by
  rw [isHookName, String.toList_ofList]
  cases cs <;> rfl

theorem isHookName_accessor (name : String) :
    isHookName (accessor name) = startsPlainly name := by
  rw [accessor, isHookName_ofList_append, head?_capitalize_spellService,
    head?_capitalize (head?_camelCaseList name.toList), startsPlainly]

theorem accessor_camelCase (name : String) : accessor (camelCase name) = accessor name := by
  have hchars : (camelCase name).toList = camelCaseList name.toList := String.toList_ofList
  rw [accessor, hchars, camelCaseList_camelCaseList, accessor]

/-! ## Keywords in accessors -/

section Keywords

variable {keyword front back : List Char}

/-- A character that the keyword lacks keeps apart what is spelled before and behind it. -/
theorem spells_append_cons {c : Char} (hc : c.toLower ∉ keyword) :
    Spells keyword (front ++ c :: back) ↔ Spells keyword front ∨ Spells keyword back := by
  rw [Spells, List.map_append, List.map_cons]
  constructor
  · intro h
    rcases List.infix_append_iff.1 h with h | h | ⟨start, rest, rfl, hstart, hrest⟩
    · exact Or.inl h
    · rcases List.infix_cons_iff.1 h with h | h
      · rcases List.prefix_cons_iff.1 h with rfl | ⟨rest, rfl, -⟩
        · exact Or.inl (List.nil_infix)
        · exact absurd List.mem_cons_self hc
      · exact Or.inr h
    · rcases List.prefix_cons_iff.1 hrest with rfl | ⟨rest, rfl, -⟩
      · rw [List.append_nil]
        exact Or.inl hstart.isInfix
      · exact absurd (List.mem_append_right start List.mem_cons_self) hc
  · rintro (h | h)
    · exact h.trans (List.prefix_append _ _).isInfix
    · exact h.trans ((List.suffix_cons _ _).trans (List.suffix_append _ _)).isInfix

theorem Spells.mono {word : List Char} (h : Spells keyword word) (hword : word <:+: cs) :
    Spells keyword cs :=
  h.trans (hword.map Char.toLower)

variable (hkeyword : ∀ k ∈ keyword, k.isLower = true)
include hkeyword

theorem toLower_notMem_of_isSeparator {c : Char} (h : isSeparator c = true) :
    c.toLower ∉ keyword := by
  intro hc
  have hlower := hkeyword _ hc
  have hnone : isSeparator c = true → c.toLower.isLower = false :=
    forall_ascii (p := fun c => isSeparator c = true → c.toLower.isLower = false)
      (by decide +kernel) (toNat_lt_of_isLower_toLower hlower)
  rw [hnone h] at hlower
  cases hlower

theorem spells_capitalize (h : Spells keyword cs) : Spells keyword (capitalize cs) := by
  cases cs with
  | nil => exact h
  | cons c rest =>
    rcases List.infix_cons_iff.1 h with h | h
    · rcases List.prefix_cons_iff.1 h with rfl | ⟨more, rfl, hmore⟩
      · exact List.nil_infix
      · obtain ⟨u, hu, hlower⟩ := capital_of_letter (hkeyword _ List.mem_cons_self)
        rw [Spells, capitalize, hu, List.singleton_append, List.map_cons, hlower]
        exact (List.cons_prefix_cons.2 ⟨rfl, hmore⟩).isInfix
    · exact Spells.mono h (List.suffix_append _ _).isInfix

/-- What a name spells, one of its words spells. -/
theorem exists_word_spells (hne : keyword ≠ []) (current : List Char)
    (h : Spells keyword (current.reverse ++ cs)) :
    ∃ word ∈ wordsFrom current cs, Spells keyword word := by
  induction cs generalizing current with
  | nil =>
    rw [List.append_nil] at h
    have hcurrent : current ≠ [] := by
      rintro rfl
      exact hne (List.infix_nil.1 h)
    exact ⟨current.reverse, by simp [wordsFrom, hcurrent], h⟩
  | cons c rest ih =>
    rw [wordsFrom_cons]
    cases hc : isSeparator c with
    | false =>
      rw [if_neg Bool.false_ne_true]
      refine ih (c :: current) ?_
      rwa [List.reverse_cons, List.append_assoc]
    | true =>
      rw [if_pos rfl]
      rcases (spells_append_cons (toLower_notMem_of_isSeparator hkeyword hc)).1 h with h | h
      · have hcurrent : current ≠ [] := by
          rintro rfl
          exact hne (List.infix_nil.1 h)
        exact ⟨current.reverse, by simp [hcurrent], h⟩
      · obtain ⟨word, hword, hspells⟩ := ih [] h
        refine ⟨word, ?_, hspells⟩
        split
        · exact hword
        · exact List.mem_cons_of_mem _ hword

theorem spells_camelCaseList (hne : keyword ≠ []) (h : Spells keyword cs) :
    Spells keyword (camelCaseList cs) := by
  obtain ⟨word, hword, hspells⟩ := exists_word_spells hkeyword hne [] h
  rw [camelCaseList]
  split
  · rename_i hnil
    rw [hnil] at hword
    exact absurd hword List.not_mem_nil
  · rename_i first rest hsplit
    rw [hsplit] at hword
    rcases List.mem_cons.1 hword with rfl | hword
    · exact hspells.mono (List.prefix_append _ _).isInfix
    · refine (spells_capitalize hkeyword hspells).mono ?_
      have hpart : capitalize word <:+: rest.flatMap capitalize :=
        List.infix_of_mem_flatten (List.mem_map_of_mem hword)
      exact hpart.trans (List.suffix_append _ _).isInfix

end Keywords

/-- Spelling a trailing `service` anew takes no keyword away. -/
theorem spells_spellService (d : Dependency) (h : Spells d.keyword.toList cs) :
    Spells d.keyword.toList (spellService cs) := by
  rw [spellService]
  split
  · rename_i hends
    obtain ⟨front, c, e, tail, hcs, htake, hc, he, hlength⟩ := exists_of_endsWithService hends
    rw [htake]
    cases d with
    | service =>
      have hspelled : Spells "service".toList "Service".toList := ⟨[], [], by decide +kernel⟩
      exact hspelled.mono (List.suffix_append _ _).isInfix
    | client =>
      have hmissing : c.toLower ∉ "client".toList := by
        rcases eq_of_sameLetter_s hc with rfl | rfl | rfl <;> decide +kernel
      rw [hcs] at h
      rcases (spells_append_cons hmissing).1 h with h | h
      · exact h.mono (List.prefix_append _ _).isInfix
      · have hall := h.eq_of_length (by simp [hlength])
        have hletter : e = 'e' ∨ e = 'E' := by simpa [sameLetter] using he
        rcases hletter with rfl | rfl <;> simp at hall
  · exact h

theorem mentions_accessor (d : Dependency) {name : String} (h : mentions d.keyword name = true) :
    mentions d.keyword (accessor name) = true := by
  have hlower := d.isLower_of_mem_keyword
  rw [mentions_iff_spells] at h ⊢
  rw [accessor, String.toList_ofList]
  have hcamel := spells_camelCaseList hlower d.keyword_ne_nil h
  have hbase := spells_capitalize hlower (spells_spellService d hcamel)
  exact hbase.mono (List.suffix_append _ _).isInfix

end SliceLint.ServiceName
