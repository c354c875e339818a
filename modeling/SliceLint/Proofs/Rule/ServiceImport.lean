import SliceLint.Proofs.Path.Resolution
import SliceLint.Rule.ServiceImport

/-!
# The messages of the rule on services

**Checked imports** (`checked?_eq`). The rule looks at imports in components, but not at tests, at
specifiers that mention `react`, or at imports of types.

**Messages** (`messageIds_congr`). What the rule says of an import depends on where its specifier
leads, on the last name of the specifier, and on what is bound.

**The last name** (`segment_append_join`). It is the last of the names that a specifier joins.
-/

namespace SliceLint.ServiceImport

/-- The messages of the findings of a statement, in order. -/
def messageIds (statement : Tree) (ctx : FileContext) : List String :=
  (check statement ctx).map Finding.messageId

/-- A specifier that mentions `react` is passed over. -/
def mentionsReact (source : String) : Bool := Text.contains source "react"

variable {statement statement' : Tree} {ctx : FileContext} {source source' : String}

/-! ## Which imports are checked -/

theorem check_of_unchecked (h : checked? statement ctx.relPath = none) :
    check statement ctx = [] := by
  delta check
  rw [h]

theorem check_of_checked (h : checked? statement ctx.relPath = some source) :
    check statement ctx =
      checkHooks statement.start source statement.importBindings ctx ++
        checkService statement.start statement.importBindings (segment source) ++
        checkClient statement.start statement.importBindings (segment source) := by
  delta check
  rw [h]

theorem checked?_eq (hsource : statement.importSource? = some source) (relPath : String) :
    checked? statement relPath =
      if !FileKind.isComponent relPath || FileKind.isTest relPath || mentionsReact source ||
        statement.importsTypesOnly then none else some source := by
  rw [checked?, hsource, Option.bind_some, mentionsReact]
  cases !FileKind.isComponent relPath || FileKind.isTest relPath <;> rfl

theorem check_eq_nil (h : statement.importsTypesOnly = true) (ctx : FileContext) :
    check statement ctx = [] := by
  cases hsource : statement.importSource? with
  | none => exact check_of_unchecked (by simp [checked?, hsource])
  | some source => exact check_of_unchecked (by simp [checked?_eq hsource, h])

theorem messageIds_of_mentionsReact (hsource : statement.importSource? = some source)
    (h : mentionsReact source = true) : messageIds statement ctx = [] := by
  rw [messageIds, check_of_unchecked (by simp [checked?_eq hsource, h]), List.map_nil]

/-! ## One check after the other -/

theorem messageIds_checkHooks (place : Position) (bindings : List String) :
    (checkHooks place source bindings ctx).map Finding.messageId =
      if (ctx.coordinate.map Coordinate.layer) == some .widgets &&
          ((target? source ctx).map Coordinate.layer) == some .features &&
          !(hookNames bindings).isEmpty then ["directFeatureHookImport"] else [] := by
  rw [checkHooks]
  split <;> rfl

theorem messageIds_checkService (place : Position) (bindings : List String) (segment : String) :
    (checkService place bindings segment).map Finding.messageId =
      if (ServiceName.flagged? bindings segment "service").isSome then
        ["directServiceImport"] else [] := by
  rw [checkService]
  cases ServiceName.flagged? bindings segment "service" <;> rfl

theorem messageIds_checkClient (place : Position) (bindings : List String) (segment : String) :
    (checkClient place bindings segment).map Finding.messageId =
      if (ServiceName.flagged? bindings segment "client").isSome then
        ["directClientImport"] else [] := by
  rw [checkClient]
  cases ServiceName.flagged? bindings segment "client" <;> rfl

/-! ## All checks -/

theorem messageIds_eq (hchecked : checked? statement ctx.relPath = some source) :
    messageIds statement ctx =
      (checkHooks statement.start source statement.importBindings ctx).map Finding.messageId ++
        (checkService statement.start statement.importBindings (segment source)).map
          Finding.messageId ++
        (checkClient statement.start statement.importBindings (segment source)).map
          Finding.messageId := by
  rw [messageIds, check_of_checked hchecked, List.map_append, List.map_append]

/-- Specifiers with one target and one last name give the same messages, if both are passed over or
neither is. -/
theorem messageIds_congr (hsource : statement.importSource? = some source)
    (hsource' : statement'.importSource? = some source')
    (hreact : mentionsReact source = mentionsReact source')
    (htarget : target? source ctx = target? source' ctx)
    (hsegment : segment source = segment source')
    (hbindings : statement.importBindings = statement'.importBindings)
    (htypes : statement.importsTypesOnly = statement'.importsTypesOnly) :
    messageIds statement ctx = messageIds statement' ctx := by
  have hchecked := checked?_eq hsource ctx.relPath
  have hchecked' := checked?_eq hsource' ctx.relPath
  rw [hreact, htypes] at hchecked
  split at hchecked
  · rename_i hskip
    rw [if_pos hskip] at hchecked'
    rw [messageIds, messageIds, check_of_unchecked hchecked, check_of_unchecked hchecked']
  · rename_i hkeep
    rw [if_neg hkeep] at hchecked'
    simp only [messageIds_eq hchecked, messageIds_eq hchecked', messageIds_checkHooks,
      messageIds_checkService, messageIds_checkClient, htarget, hsegment, hbindings]

/-! ## Findings by message -/

theorem mem_check_iff {f : Finding} : f ∈ check statement ctx ↔
    ∃ source, checked? statement ctx.relPath = some source ∧
      (f ∈ checkHooks statement.start source statement.importBindings ctx ∨
        f ∈ checkService statement.start statement.importBindings (segment source) ∨
        f ∈ checkClient statement.start statement.importBindings (segment source)) := by
  cases hchecked : checked? statement ctx.relPath with
  | none => simp [check_of_unchecked hchecked]
  | some source => simp [check_of_checked hchecked]

/-! ## The last name -/

/-- The last name of a specifier, where it stands alone or behind a slash. -/
theorem segment_eq_of_name (front : List Char) {name : String}
    (hsource : source.toList = front ++ name.toList) (hfront : ∀ c ∈ front.getLast?, c = '/')
    (hname : Path.IsName name) : segment source = Path.stemOfBase name := by
  have hne : name.toList ≠ [] := fun hnil => hname.ne_empty (String.toList_eq_nil_iff.1 hnil)
  have hkeep : (source.toList.reverse.dropWhile (· == '/')).reverse = source.toList := by
    refine List.rdropWhile_eq_self_iff.2 fun hsome hslash => hname.no_slash ?_
    rw [beq_iff_eq] at hslash
    rw [← hslash, List.getLast_congr _ (List.append_ne_nil_of_right_ne_nil _ hne) hsource,
      List.getLast_append_of_ne_nil _ hne]
    exact List.getLast_mem hne
  rw [segment, hkeep, String.ofList_toList, Path.stemOfBase, Path.stemOfBase,
    Path.baseName_of_front hsource hfront hname.no_slash,
    Path.baseName_of_no_slash hname.no_slash]

/-- The last of the names that are joined, behind a prefix that ends with a slash or is empty. -/
theorem segment_append_join (lead : String) (hlead : ∀ c ∈ lead.toList.getLast?, c = '/')
    (names : List String) {name : String} (hname : Path.IsName name) :
    segment (lead ++ Text.join "/" (names ++ [name])) = Path.stemOfBase name := by
  obtain ⟨front, hjoin, hfront⟩ := Path.exists_join_concat names name
  refine segment_eq_of_name (lead.toList ++ front) ?_ ?_ hname
  · rw [String.toList_append, hjoin, List.append_assoc]
  · rw [List.getLast?_append]
    cases hlast : front.getLast? with
    | none => exact hlead
    | some c =>
      rw [hlast] at hfront
      exact hfront

end SliceLint.ServiceImport
