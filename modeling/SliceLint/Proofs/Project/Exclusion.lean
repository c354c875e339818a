import SliceLint.Config.Basic
import SliceLint.Glob
import SliceLint.Proofs.Path.Marker

/-!
# What the standard patterns leave out

**Words in patterns** (`Glob.accepts_infix_iff`, `Glob.accepts_suffix_iff`). Characters that stand
for themselves make up a word. A pattern with a star on both sides of a word matches where the word
occurs, one with a star in front of it where the word is the end.

**Folders and endings** (`isExcluded_iff`). A star matches slashes too, so a name between slashes
may occur anywhere, and the slash that is put in front of a path lets it be the first one. Between
slashes a name is a whole piece of the path, and not the last piece.
-/

namespace SliceLint

namespace Glob

/-! ## Words in patterns -/

/-- The character stands for itself in a pattern. -/
def IsPlain (c : Char) : Prop := c ∉ ['*', '?', '[']

theorem parseFrom_cons {c : Char} (hc : IsPlain c) (n : Nat) (rest : List Char) :
    parseFrom (n + 1) (c :: rest) = .exactly c :: parseFrom n rest := by
  simp only [IsPlain, List.mem_cons, List.not_mem_nil, or_false, not_or] at hc
  obtain ⟨hstar, hany, hopen⟩ := hc
  rw [parseFrom]
  · exact hstar
  · exact hany
  · exact hopen

theorem parseFrom_append {word : List Char} (h : ∀ c ∈ word, IsPlain c) (n : Nat)
    (rest : List Char) :
    parseFrom (word.length + n) (word ++ rest) = word.map .exactly ++ parseFrom n rest := by
  induction word with
  | nil => rw [List.length_nil, Nat.zero_add]; rfl
  | cons c word ih =>
    obtain ⟨hc, hword⟩ := List.forall_mem_cons.1 h
    rw [List.length_cons, Nat.add_right_comm, List.cons_append, parseFrom_cons hc, ih hword]
    rfl

/-- A star and a word are read one by one, and then the rest of the pattern. -/
theorem parse_star_append {pattern : String} {word rest : List Char}
    (hpattern : pattern.toList = '*' :: (word ++ rest)) (hne : word ≠ [])
    (h : ∀ c ∈ word, IsPlain c) :
    parse pattern = .star :: (word.map .exactly ++ parseFrom rest.length rest) := by
  have hlength : pattern.length = (word.length + rest.length) + 1 := by
    rw [← String.length_toList, hpattern, List.length_cons, List.length_append]
  -- what comes behind the star is read to no star, so the star stays by itself
  obtain ⟨c, cs, rfl⟩ := List.exists_cons_of_ne_nil hne
  rw [parse, hlength, hpattern, parseFrom, parseFrom_append h]
  rfl

/-! ## What words match -/

theorem someEnd_iff {p : List Char → Bool} {cs : List Char} :
    someEnd p cs = true ↔ ∃ tail, tail <:+ cs ∧ p tail = true := by
  induction cs with
  | nil => simp [someEnd, List.suffix_nil]
  | cons c cs ih =>
    rw [someEnd, Bool.or_eq_true, ih]
    simp only [List.suffix_cons_iff, or_and_right, exists_or, exists_eq_left]

theorem covers_word_append {word : List Char} {g : Glob} {cs : List Char} :
    covers (word.map .exactly ++ g) cs = true ↔
      ∃ rest, word ++ rest = cs ∧ covers g rest = true := by
  induction word generalizing cs with
  | nil => simp
  | cons c word ih =>
    cases cs with
    | nil => simp [covers]
    | cons d cs =>
      rw [List.map_cons, List.cons_append, covers, Part.accepts, Bool.and_eq_true, beq_iff_eq, ih]
      constructor
      · rintro ⟨rfl, rest, rfl, hrest⟩
        exact ⟨rest, rfl, hrest⟩
      · rintro ⟨rest, heq, hrest⟩
        obtain ⟨rfl, rfl⟩ := List.cons.inj heq
        exact ⟨rfl, rest, rfl, hrest⟩
      · intro h
        cases h

theorem accepts_suffix_iff {pattern : String} {word : List Char}
    (hpattern : pattern.toList = '*' :: word) (hne : word ≠ []) (h : ∀ c ∈ word, IsPlain c)
    (s : String) : (parse pattern).accepts s = true ↔ word <:+ s.toList := by
  rw [← List.append_nil word] at hpattern
  rw [accepts, headD_row, parse_star_append hpattern hne h, covers, someEnd_iff]
  simp only [covers_word_append]
  constructor
  · rintro ⟨_, htail, rest, rfl, hrest⟩
    obtain rfl : rest = [] := List.isEmpty_iff.1 hrest
    rwa [List.append_nil] at htail
  · intro hsuffix
    exact ⟨word, hsuffix, [], List.append_nil _, rfl⟩

theorem accepts_infix_iff {pattern : String} {word : List Char}
    (hpattern : pattern.toList = '*' :: (word ++ ['*'])) (hne : word ≠ [])
    (h : ∀ c ∈ word, IsPlain c) (s : String) :
    (parse pattern).accepts s = true ↔ word <:+: s.toList := by
  rw [accepts, headD_row, parse_star_append hpattern hne h, covers, someEnd_iff,
    List.infix_iff_prefix_suffix]
  simp only [covers_word_append]
  constructor
  · rintro ⟨tail, htail, rest, hrest, -⟩
    exact ⟨tail, ⟨rest, hrest⟩, htail⟩
  · rintro ⟨tail, ⟨rest, hrest⟩, htail⟩
    have hstar : covers [.star] rest = true := someEnd_iff.2 ⟨[], List.nil_suffix, rfl⟩
    exact ⟨tail, htail, rest, hrest, hstar⟩

end Glob

/-! ## Folders and endings -/

/-- The pattern of the files below folders of a name. -/
def folderPattern (name : String) : String := "*/" ++ name ++ "/*"

/-- The pattern of the files whose paths end in a text. -/
def endingPattern (ending : String) : String := "*" ++ ending

/-- The name is one that patterns can hold between slashes. -/
def IsFolderName (name : String) : Prop := ∀ c ∈ name.toList, Glob.IsPlain c ∧ c ≠ '/'

/-- The text is one that patterns can hold at their end, and that a name ends in. -/
def IsEnding (ending : String) : Prop :=
  ending ≠ "" ∧ ending.toList.head? ≠ some '/' ∧ ∀ c ∈ ending.toList, Glob.IsPlain c

theorem folderPattern_matches_iff {name : String} (hname : IsFolderName name) (p : String) :
    ((Glob.parse (folderPattern name)).accepts p ||
      (Glob.parse (folderPattern name)).accepts ("/" ++ p)) = true ↔
      name ∈ (Path.pieces p).dropLast := by
  have hpattern :
      (folderPattern name).toList = '*' :: ('/' :: (name.toList ++ ['/']) ++ ['*']) := by
    simp [folderPattern]
  have hword : ∀ c ∈ '/' :: (name.toList ++ ['/']), Glob.IsPlain c := by
    have hplain : Glob.IsPlain '/' := by simp [Glob.IsPlain]
    have hnames : ∀ c ∈ name.toList, Glob.IsPlain c := fun c hc => (hname c hc).1
    exact List.forall_mem_cons.2
      ⟨hplain, List.forall_mem_append.2 ⟨hnames, List.forall_mem_singleton.2 hplain⟩⟩
  have hslash : '/' ∉ name.toList := fun h => (hname '/' h).2 rfl
  have hfirst : ("/" ++ p).toList = '/' :: p.toList := by simp
  rw [Bool.or_eq_true, Glob.accepts_infix_iff hpattern (List.cons_ne_nil _ _) hword,
    Glob.accepts_infix_iff hpattern (List.cons_ne_nil _ _) hword, hfirst,
    ← Path.occurs_between_slashes_iff hslash, Text.occurs_iff_infix]
  exact or_iff_right_of_imp List.infix_cons

theorem endingPattern_matches_iff {ending : String} (h : IsEnding ending) (p : String) :
    ((Glob.parse (endingPattern ending)).accepts p ||
      (Glob.parse (endingPattern ending)).accepts ("/" ++ p)) = true ↔
      ending.toList <:+ p.toList := by
  obtain ⟨hne, hhead, hplain⟩ := h
  have hpattern : (endingPattern ending).toList = '*' :: ending.toList := by simp [endingPattern]
  have hnil : ending.toList ≠ [] := by simpa using hne
  have hfirst : ("/" ++ p).toList = '/' :: p.toList := by simp
  rw [Bool.or_eq_true, Glob.accepts_suffix_iff hpattern hnil hplain,
    Glob.accepts_suffix_iff hpattern hnil hplain, hfirst, List.suffix_cons_iff]
  constructor
  · rintro (h | h | h)
    · exact h
    · exact absurd (h ▸ rfl) hhead
    · exact h
  · exact .inl

/-- Patterns of folders and endings leave out what is below such a folder or has such an ending. -/
theorem isExcluded_iff {folders endings : List String}
    (hfolders : ∀ name ∈ folders, IsFolderName name)
    (hendings : ∀ ending ∈ endings, IsEnding ending) (p : String) :
    isExcluded p (folders.map folderPattern ++ endings.map endingPattern) = true ↔
      (∃ name ∈ (Path.pieces p).dropLast, name ∈ folders) ∨
        ∃ ending ∈ endings, ending.toList <:+ p.toList := by
  rw [isExcluded, List.any_append, Bool.or_eq_true, List.any_map, List.any_map, List.any_eq_true,
    List.any_eq_true]
  refine or_congr ⟨?_, ?_⟩ ⟨?_, ?_⟩
  · rintro ⟨name, hname, h⟩
    exact ⟨name, (folderPattern_matches_iff (hfolders name hname) p).1 h, hname⟩
  · rintro ⟨name, h, hname⟩
    exact ⟨name, hname, (folderPattern_matches_iff (hfolders name hname) p).2 h⟩
  · rintro ⟨ending, hending, h⟩
    exact ⟨ending, hending, (endingPattern_matches_iff (hendings ending hending) p).1 h⟩
  · rintro ⟨ending, hending, h⟩
    exact ⟨ending, hending, (endingPattern_matches_iff (hendings ending hending) p).2 h⟩

/-- The folders of dependencies, of output and of coverage. -/
def standardFolders : List String := ["node_modules", "build", "dist", "coverage"]

/-- The standard patterns leave out what is below one of these folders, and declarations. -/
theorem isExcluded_standard_iff (p : String) :
    isExcluded p Config.standardExclude = true ↔
      (∃ name ∈ (Path.pieces p).dropLast, name ∈ standardFolders) ∨
        ".d.ts".toList <:+ p.toList := by
  have hstandard : Config.standardExclude =
      standardFolders.map folderPattern ++ [".d.ts"].map endingPattern := by decide
  have hfolders : ∀ name ∈ standardFolders, IsFolderName name := by
    simp [standardFolders, IsFolderName, Glob.IsPlain]
  have hendings : ∀ ending ∈ [".d.ts"], IsEnding ending := by
    simp [IsEnding, Glob.IsPlain]
  rw [hstandard, isExcluded_iff hfolders hendings]
  simp only [List.mem_singleton, exists_eq_left]

example : isExcluded "app/rebuild/dist-old/build" Config.standardExclude = false := by decide

end SliceLint
