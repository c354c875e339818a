import SliceLint.Proofs.Rule.ImportCycle
import SliceLint.Proofs.Rule.LayerBoundary
import SliceLint.Proofs.Rule.ServiceImport

/-!
# Two spellings of an import of types

Named imports are types alone when the statement is marked so, or when each of them is.

**Spelling** (`Tree.SpellsImport`). A statement spells an import of some names when its specifiers
are those names in order, all of them marked or none, and the statement itself is marked or not.

**Bindings** (`Tree.importBindings_of_marked_names`). Where every name is marked nothing is bound.
Where the statement is marked its names count as bound all the same
(`Tree.SpellsImport.importBindings_eq`).

**Messages** (`type_import_spellings`). The rule on services asks whether types alone are imported,
and is silent about both spellings. The rule on layers looks at what is bound and at nothing else.
So the mark at the statement gives the messages that marks at the names give, and one more in a
widget that imports the type of a hook from a feature.
-/

namespace SliceLint

/-- A name that is imported, under its own name or another one. -/
structure NamedImport where
  name : String
  renamed? : Option String
deriving DecidableEq, Repr

/-- The name in the importing file. -/
def NamedImport.localName (n : NamedImport) : String := n.renamed?.getD n.name

namespace Tree

/-- The name that a node in the role of a name stands for. -/
def boundName (t : Tree) : String := if t.kind == "string" then t.unquoted else t.lexeme

/-- The specifier spells the name, marked as a type or not. -/
structure SpellsName (marked : Bool) (n : NamedImport) (spec : Tree) : Prop where
  kind_eq : spec.kind = "import_specifier"
  marksType_eq : spec.marksType = marked
  name_eq : (spec.childInRole? "name").map boundName = some n.name
  alias_eq : (spec.childInRole? "alias").map boundName = n.renamed?

/-- The statement spells an import of the names, with a mark for types at the statement or not, and
at all the names or at none. -/
structure SpellsImport (whole inline : Bool) (source? : Option String) (names : List NamedImport)
    (statement : Tree) : Prop where
  source_eq : statement.importSource? = source?
  marksType_eq : statement.marksType = whole
  clause : ∃ clause part, statement.importClause? = some clause ∧ clause.namedChildren = [part] ∧
    part.kind = "named_imports" ∧
    List.Forall₂ (SpellsName inline) names
      (part.namedChildren.filter fun s => s.kind == "import_specifier")

/-! ## Bindings -/

theorem specifierBinding?_eq_none {spec : Tree}
    (h : spec.kind = "import_specifier" → spec.marksType = true) :
    spec.specifierBinding? = none := by
  rw [specifierBinding?, if_pos]
  by_cases hkind : spec.kind = "import_specifier"
  · simp [h hkind]
  · simp [hkind]

/-- Named imports each of which is marked bind nothing. -/
theorem importBindings_of_marked_names {t : Tree} (h : t.importsTypesOnly = true)
    (hmark : t.marksType = false) : t.importBindings = [] := by
  rw [importsTypesOnly, hmark, Bool.false_or] at h
  rw [importBindings]
  cases hclause : t.importClause? with
  | none => rfl
  | some clause =>
    rw [hclause] at h
    dsimp only at h ⊢
    split at h
    · rename_i part hpart
      simp only [Bool.and_eq_true, beq_iff_eq, List.all_eq_true, List.mem_filter] at h
      obtain ⟨⟨hkind, -⟩, hall⟩ := h
      have hnone : ∀ spec ∈ part.namedChildren, spec.specifierBinding? = none :=
        fun spec hspec => specifierBinding?_eq_none fun hkind => hall spec ⟨hspec, hkind⟩
      simpa [hpart, clauseBindings, hkind] using hnone
    · cases h

theorem SpellsName.specifierBinding?_eq {marked : Bool} {n : NamedImport} {spec : Tree}
    (h : SpellsName marked n spec) :
    spec.specifierBinding? = if marked then none else some n.localName := by
  rw [specifierBinding?, h.kind_eq, h.marksType_eq]
  have hlocal : ((spec.childInRole? "alias").or (spec.childInRole? "name")).map boundName =
      some n.localName := by
    rw [Option.map_or, h.alias_eq, h.name_eq, NamedImport.localName]
    cases n.renamed? <;> rfl
  cases marked with
  | true => rfl
  | false => exact hlocal

theorem filterMap_specifierBinding? (specs : List Tree) : specs.filterMap specifierBinding? =
    (specs.filter fun s => s.kind == "import_specifier").filterMap specifierBinding? := by
  rw [List.filterMap_filter]
  refine List.filterMap_congr fun spec _ => ?_
  split
  · rfl
  · rename_i hkind
    exact specifierBinding?_eq_none fun heq => absurd (beq_iff_eq.2 heq) hkind

section Names

variable {marked : Bool} {names : List NamedImport} {specs : List Tree}

theorem marksType_of_spellsName (h : List.Forall₂ (SpellsName marked) names specs) :
    ∀ spec ∈ specs, spec.marksType = marked := by
  induction h with
  | nil => simp
  | cons hname _ ih => exact List.forall_mem_cons.2 ⟨hname.marksType_eq, ih⟩

theorem localNames_of_spellsName (h : List.Forall₂ (SpellsName false) names specs) :
    specs.filterMap specifierBinding? = names.map NamedImport.localName := by
  induction h with
  | nil => rfl
  | cons hname _ ih =>
    rw [List.filterMap_cons, hname.specifierBinding?_eq, ih]
    rfl

end Names

namespace SpellsImport

variable {whole inline : Bool} {source? : Option String} {names : List NamedImport}
  {statement : Tree}

/-- A mark at the statement does not keep its names from being bound. -/
theorem importBindings_eq (h : SpellsImport whole false source? names statement) :
    statement.importBindings = names.map NamedImport.localName := by
  obtain ⟨clause, part, hclause, hpart, hkind, hspecs⟩ := h.clause
  rw [importBindings, hclause]
  simp only [hpart, List.flatMap_cons, List.flatMap_nil, List.append_nil]
  rw [clauseBindings, hkind]
  exact (filterMap_specifierBinding? _).trans (localNames_of_spellsName hspecs)

theorem importsTypesOnly_of_whole (h : SpellsImport true inline source? names statement) :
    statement.importsTypesOnly = true := by
  rw [importsTypesOnly, h.marksType_eq, Bool.true_or]

theorem importsTypesOnly_of_inline (h : SpellsImport whole true source? names statement)
    (hnames : names ≠ []) : statement.importsTypesOnly = true := by
  obtain ⟨clause, part, hclause, hpart, hkind, hspecs⟩ := h.clause
  have hsome : (part.namedChildren.filter fun s => s.kind == "import_specifier") ≠ [] := by
    rintro hnil
    rw [hnil, List.forall₂_nil_right_iff] at hspecs
    exact hnames hspecs
  have hall := List.all_eq_true.2 (marksType_of_spellsName hspecs)
  rw [importsTypesOnly, hclause]
  simp only [hpart, hkind, hall, List.isEmpty_eq_false_iff.2 hsome]
  exact Bool.or_true _

end SpellsImport

end Tree

/-! ## The rule on layers -/

namespace LayerBoundary

/-- A widget imports from a feature and binds the name of a hook. -/
def TakesHooks (source? : Option String) (bindings : List String) (ctx : FileContext) : Prop :=
  ctx.coordinate.map Coordinate.layer = some .widgets ∧
    (source?.bind fun source => ServiceImport.target? source ctx).map Coordinate.layer =
      some .features ∧
    ∃ name ∈ bindings, isHookName name = true

instance (source? : Option String) (bindings : List String) (ctx : FileContext) :
    Decidable (TakesHooks source? bindings ctx) :=
  inferInstanceAs (Decidable (_ ∧ _ ∧ _))

variable {statement statement' : Tree} {ctx : FileContext} {i : Import}

theorem hookNames_isEmpty_eq_false_iff {names : List String} :
    (hookNames names).isEmpty = false ↔ ∃ name ∈ names, isHookName name = true := by
  rw [hookNames, List.isEmpty_eq_false_iff, ne_eq, List.filter_eq_nil_iff]
  push Not
  rfl

theorem takesHooks_iff : TakesHooks statement.importSource? statement.importBindings ctx ↔
    ∃ i, import? statement ctx = some i ∧
      (i.importer.layer == .widgets && i.target.layer == .features && !i.hooks.isEmpty) = true := by
  simp only [TakesHooks, ServiceImport.target?, Option.map_eq_some_iff, Option.bind_eq_some_iff,
    Bool.and_eq_true, beq_iff_eq, Bool.not_eq_true', ← hookNames_isEmpty_eq_false_iff]
  constructor
  · rintro ⟨⟨importer, hfile, hwidgets⟩, ⟨target, ⟨source, hsource, path, hpath, htarget⟩,
      hfeatures⟩, hhooks⟩
    exact ⟨_, import?_eq_some hfile hsource hpath htarget, ⟨hwidgets, hfeatures⟩, hhooks⟩
  · rintro ⟨i, hi, ⟨hwidgets, hfeatures⟩, hhooks⟩
    obtain ⟨hfile, hpath, htarget, hnames, -⟩ := import?_eq_some_iff.1 hi
    obtain ⟨source, hsource, hpath⟩ := Option.bind_eq_some_iff.1 hpath
    exact ⟨⟨_, hfile, hwidgets⟩, ⟨_, ⟨source, hsource, _, hpath, htarget⟩, hfeatures⟩,
      hnames ▸ hhooks⟩

/-- What an import binds counts for one message alone. -/
theorem messageIds_of_same_source
    (hsource : statement'.importSource? = statement.importSource?)
    (hnothing : statement'.importBindings = []) : messageIds statement ctx =
      (if TakesHooks statement.importSource? statement.importBindings ctx then
        ["widgetImportingFromFeature"] else []) ++ messageIds statement' ctx := by
  have hpath : path? statement' ctx = path? statement ctx := by rw [path?, hsource, path?]
  have himport := import?_of_same_path hpath
  cases hi : import? statement ctx with
  | none =>
    have hnot : ¬ TakesHooks statement.importSource? statement.importBindings ctx := by
      simp [takesHooks_iff, hi]
    rw [hi] at himport
    rw [messageIds_of_no_import hi, messageIds_of_no_import himport, if_neg hnot]
    rfl
  | some i =>
    have htakes : TakesHooks statement.importSource? statement.importBindings ctx ↔
        (i.importer.layer == .widgets && i.target.layer == .features && !i.hooks.isEmpty) =
          true := by
      simp [takesHooks_iff, hi]
    rw [hi, hnothing] at himport
    have hhooks : (checkHooks i).map Finding.messageId =
        if TakesHooks statement.importSource? statement.importBindings ctx then
          ["widgetImportingFromFeature"] else [] := by
      rw [messageIds_checkHooks]
      exact if_congr htakes.symm rfl rfl
    rw [messageIds_eq hi, messageIds_eq himport, hhooks]
    simp only [messageIds_checkHooks, messageIds_checkDirection, messageIds_checkSlices,
      messageIds_checkInterface, messageIds_checkServer, Import.crosses, hookNames,
      List.filter_nil, List.isEmpty_nil, Bool.not_true, Bool.and_false, Bool.false_eq_true,
      if_false, List.nil_append, List.append_assoc]
    rfl

/-- **Two spellings.** Types that are imported under one mark at the statement, or under a mark at
each name, are no matter for the rule on services. The rule on layers takes them alike but for one
message, which the mark at the statement does not avert: that a widget imports hooks from a
feature. -/
theorem type_import_spellings {source? : Option String} {names : List NamedImport}
    {whole inline : Tree} (hnames : names ≠ [])
    (hwhole : whole.SpellsImport true false source? names)
    (hinline : inline.SpellsImport false true source? names) (ctx : FileContext) :
    ServiceImport.check whole ctx = [] ∧ ServiceImport.check inline ctx = [] ∧
      inline.importBindings = [] ∧ whole.importBindings = names.map NamedImport.localName ∧
      messageIds whole ctx =
        (if TakesHooks source? (names.map NamedImport.localName) ctx then
          ["widgetImportingFromFeature"] else []) ++ messageIds inline ctx := by
  have htypes := hinline.importsTypesOnly_of_inline hnames
  have hnothing := Tree.importBindings_of_marked_names htypes hinline.marksType_eq
  have hmessages : messageIds whole ctx = _ ++ messageIds inline ctx :=
    messageIds_of_same_source (hinline.source_eq.trans hwhole.source_eq.symm) hnothing
  rw [hwhole.source_eq, hwhole.importBindings_eq] at hmessages
  exact ⟨ServiceImport.check_eq_nil hwhole.importsTypesOnly_of_whole ctx,
    ServiceImport.check_eq_nil htypes ctx, hnothing, hwhole.importBindings_eq, hmessages⟩

/-! ## Trees of both spellings -/

/-- The keyword that marks types. -/
def typeMark (marked : Bool) : List Tree :=
  if marked then [.leaf "type" false "type" .origin] else []

/-- The specifier of a name. -/
def specifier (marked : Bool) (n : NamedImport) : Tree :=
  .branch "import_specifier" "" .origin (typeMark marked ++
    [(Tree.leaf "identifier" true n.name .origin).inRole "name"] ++
    n.renamed?.toList.map fun name => (Tree.leaf "identifier" true name .origin).inRole "alias")

theorem spellsName_specifier (marked : Bool) (n : NamedImport) :
    Tree.SpellsName marked n (specifier marked n) where
  kind_eq := rfl
  marksType_eq := by
    obtain ⟨name, renamed?⟩ := n
    cases marked <;> cases renamed? <;> rfl
  name_eq := by
    obtain ⟨name, renamed?⟩ := n
    cases marked <;> cases renamed? <;> rfl
  alias_eq := by
    obtain ⟨name, renamed?⟩ := n
    cases marked <;> cases renamed? <;> rfl

/-- The node of the module that is imported. -/
def sourceNode (source : String) : Tree :=
  (Tree.leaf "string" true ("'" ++ source ++ "'") .origin).inRole "source"

theorem unquoted_sourceNode (source : String) : (sourceNode source).unquoted = source := by
  have hchars : (sourceNode source).lexeme.toList = '\'' :: (source.toList ++ ['\'']) := by
    change ("'" ++ source ++ "'").toList = _
    simp
  rw [Tree.unquoted, hchars]
  simp

/-- An import statement of names. -/
def namedImports (whole inline : Bool) (source : String) (names : List NamedImport) : Tree :=
  .branch "import_statement" "" .origin (typeMark whole ++
    [.branch "import_clause" "" .origin
      [.branch "named_imports" "" .origin (names.map (specifier inline))], sourceNode source])

theorem spellsImport_namedImports (whole inline : Bool) {source : String} (hsource : source ≠ "")
    (names : List NamedImport) :
    (namedImports whole inline source names).SpellsImport whole inline (some source) names where
  source_eq := by
    have hfind : (namedImports whole inline source names).importSource? =
        if (sourceNode source).unquoted == "" then none
        else some (sourceNode source).unquoted := by
      cases whole <;> rfl
    rw [hfind, unquoted_sourceNode, if_neg]
    simpa using hsource
  marksType_eq := by cases whole <;> rfl
  clause := by
    refine ⟨.branch "import_clause" "" .origin
      [.branch "named_imports" "" .origin (names.map (specifier inline))],
      .branch "named_imports" "" .origin (names.map (specifier inline)), ?_, rfl, rfl, ?_⟩
    · cases whole <;> rfl
    · have hall : ((Tree.branch "named_imports" "" .origin
          (names.map (specifier inline))).namedChildren.filter
            fun s => s.kind == "import_specifier") = names.map (specifier inline) := by
        rw [Tree.namedChildren, List.filter_filter]
        refine List.filter_eq_self.2 fun spec hspec => ?_
        obtain ⟨n, -, rfl⟩ := List.mem_map.1 hspec
        rfl
      rw [hall, List.forall₂_map_right_iff, List.forall₂_same]
      exact fun n _ => spellsName_specifier inline n

/-! ## A hook that a widget imports as a type -/

/-- The module with the hooks of a feature. -/
def authHooks : String := "~/features/auth/hooks"

/-- The header of the shop, a widget. -/
def headerFile : FileContext :=
  (ImportCycle.shopImport "app/widgets/header/ui/Header.tsx" authHooks).file

theorem spellings_header (names : List NamedImport) :
    (namedImports true false authHooks names).SpellsImport true false (some authHooks) names ∧
      (namedImports false true authHooks names).SpellsImport false true (some authHooks) names :=
  ⟨spellsImport_namedImports true false (by decide) names,
    spellsImport_namedImports false true (by decide) names⟩

theorem type_import_spellings_header :
    (namedImports true false authHooks [⟨"Session", none⟩]).importBindings = ["Session"] ∧
      messageIds (namedImports true false authHooks [⟨"Session", none⟩]) headerFile =
        messageIds (namedImports false true authHooks [⟨"Session", none⟩]) headerFile := by
  obtain ⟨hwhole, hinline⟩ := spellings_header [⟨"Session", none⟩]
  obtain ⟨-, -, -, hbindings, hmessages⟩ :=
    type_import_spellings (List.cons_ne_nil _ _) hwhole hinline headerFile
  rw [if_neg (by decide +kernel), List.nil_append] at hmessages
  exact ⟨hbindings, hmessages⟩

/-- The type of a hook of a feature is reported under one spelling and not under the other. -/
theorem type_import_spellings_differ :
    ((namedImports true false authHooks [⟨"useAuth", none⟩]).SpellsImport true false
        (some authHooks) [⟨"useAuth", none⟩] ∧
      (namedImports false true authHooks [⟨"useAuth", none⟩]).SpellsImport false true
        (some authHooks) [⟨"useAuth", none⟩]) ∧
      messageIds (namedImports true false authHooks [⟨"useAuth", none⟩]) headerFile =
        ["widgetImportingFromFeature"] ∧
      messageIds (namedImports false true authHooks [⟨"useAuth", none⟩]) headerFile = [] :=
  ⟨spellings_header [⟨"useAuth", none⟩], by decide +kernel, by decide +kernel⟩

end LayerBoundary

end SliceLint
