import SliceLint.Proofs.Path.Relative
import SliceLint.Proofs.Rule.TypeImport

/-!
# Two spellings of an import

A file may spell the module that it imports from the source root on, or along the route from its own
folder. Both specifiers are resolved to the path of the module.

**Layers** (`LocalImport.resolved_alike`). The rule on layers looks at the path, and so has the same
messages for both spellings.

**Services** (`LocalImport.services_alike`). The rule on services looks at the path, at the last
name of the specifier, and at whether the specifier mentions `react`. Specifiers that do are passed
over. So it has the same messages for both spellings where both mention `react`, or neither does.
-/

namespace SliceLint

/-! ## Both spellings -/

namespace LocalImport

/-- Two statements of the file import the module: the one spells it from the source root on, the
other along the route from the file. Else they do not differ. -/
structure ImportedTwice (i : LocalImport) (statement statement' : Tree) (ctx : FileContext) :
    Prop where
  relPath_eq : ctx.relPath = i.importer
  aliases_eq : ctx.run.aliases = Config.standardAliases i.sourceRoot
  fromRoot_eq : statement.importSource? = some i.fromRoot
  fromHome_eq : statement'.importSource? = some i.fromHome
  bindings_eq : statement.importBindings = statement'.importBindings
  typesOnly_eq : statement.importsTypesOnly = statement'.importsTypesOnly

variable {i : LocalImport} {statement statement' : Tree} {ctx : FileContext}

theorem ImportedTwice.resolved (h : i.ImportedTwice statement statement' ctx) :
    resolveImport? i.fromRoot ctx.relPath ctx.run.aliases = some i.target ∧
      resolveImport? i.fromHome ctx.relPath ctx.run.aliases = some i.target := by
  rw [h.relPath_eq, h.aliases_eq]
  exact ⟨i.resolveImport?_fromRoot _, i.resolveImport?_fromHome⟩

/-! ## Imports in a shop -/

/-- The importing file, under the standard aliases. -/
def shopFile (i : LocalImport) : FileContext :=
  ⟨"/shop/" ++ i.importer, i.importer, "", Coordinate.ofPath? i.importer i.sourceRoot,
    .build "/shop" i.sourceRoot (Config.standardAliases i.sourceRoot) .standard []
      ⟨fun _ => .ok true, fun _ => .ok ""⟩⟩

/-- The import of one name. -/
def importOf (source name : String) : Tree :=
  LayerBoundary.namedImports false false source [⟨name, none⟩]

/-- The import of a name, under either specifier. -/
theorem importedTwice_shopFile (i : LocalImport) (name : String) :
    i.ImportedTwice (importOf i.fromRoot name) (importOf i.fromHome name) i.shopFile := by
  have hroot : i.fromRoot ≠ "" := by simp [fromRoot]
  have hhome : i.fromHome ≠ "" := by
    intro hempty
    have hrelative : isRelative i.fromHome = true := Path.isRelative_relativeSpecifier _ _
    rw [hempty] at hrelative
    simp [isRelative] at hrelative
  have hspells := LayerBoundary.spellsImport_namedImports false false hroot [⟨name, none⟩]
  have hspells' := LayerBoundary.spellsImport_namedImports false false hhome [⟨name, none⟩]
  exact ⟨rfl, rfl, hspells.source_eq, hspells'.source_eq,
    hspells.importBindings_eq.trans hspells'.importBindings_eq.symm, rfl⟩

/-- A component of a slice, and a service of the slice. -/
def cartService : LocalImport where
  roots := ["app"]
  below := ["features", "cart", "services", "userService"]
  home := ["app", "features", "cart", "ui"]
  file := "List.tsx"
  roots_ne_nil := List.cons_ne_nil _ _
  names := by decide +kernel
  noDots := by decide

/-- The component, and what reaches the server for an entity. -/
def userApi : LocalImport := { cartService with
  below := ["entities", "user", "api"]
  names := by decide +kernel }

/-- The component and the service in a slice that has `react` in its name. -/
def reactCartService : LocalImport := { cartService with
  below := ["features", "react-cart", "services", "userService"]
  home := ["app", "features", "react-cart", "ui"]
  names := by decide +kernel }

/-! ## The rule on layers -/

/-- **Layers.** Both spellings are resolved to the path of the module. So the rule on layers has the
same messages for both. -/
theorem resolved_alike (i : LocalImport) :
    resolveImport? i.fromRoot i.importer (Config.standardAliases i.sourceRoot) = some i.target ∧
    resolveImport? i.fromHome i.importer (Config.standardAliases i.sourceRoot) = some i.target ∧
    ∀ statement statement' ctx, i.ImportedTwice statement statement' ctx →
      LayerBoundary.messageIds statement ctx = LayerBoundary.messageIds statement' ctx := by
  refine ⟨i.resolveImport?_fromRoot _, i.resolveImport?_fromHome, ?_⟩
  intro statement statement' ctx h
  obtain ⟨hroot, hhome⟩ := h.resolved
  refine LayerBoundary.messageIds_of_same_path ?_ h.bindings_eq
  rw [LayerBoundary.path?, LayerBoundary.path?, h.fromRoot_eq, h.fromHome_eq, Option.bind_some,
    Option.bind_some, hroot, hhome]

theorem resolved_alike_userApi :
    userApi.fromRoot = "~/entities/user/api" ∧ userApi.fromHome = "../../../entities/user/api" ∧
      LayerBoundary.messageIds (importOf userApi.fromRoot "user") userApi.shopFile =
        ["directApiImportInUI"] ∧
      LayerBoundary.messageIds (importOf userApi.fromHome "user") userApi.shopFile =
        ["directApiImportInUI"] := by
  have hroot : LayerBoundary.messageIds (importOf userApi.fromRoot "user") userApi.shopFile =
      ["directApiImportInUI"] := by decide +kernel
  have halike := (resolved_alike userApi).2.2 _ _ _ (userApi.importedTwice_shopFile "user")
  exact ⟨by decide +kernel, by decide +kernel, hroot, halike.symm.trans hroot⟩

/-! ## Specifiers of services -/

/-- The last name of both specifiers is that of the module, unless the route ends before it. -/
theorem segment_alike (i : LocalImport) (hbelow : i.below ≠ [])
    (hlast : (Path.route i.home i.place).getLast? = i.below.getLast?) :
    ServiceImport.segment i.fromRoot = ServiceImport.segment i.fromHome := by
  obtain ⟨folders, name, hnames⟩ := (List.eq_nil_or_concat' i.below).resolve_left hbelow
  have hname : Path.IsName name := by
    refine i.isName_of_mem_place name (List.mem_append_right _ ?_)
    rw [hnames]
    exact List.mem_append_right _ (List.mem_singleton_self _)
  rw [hnames, List.getLast?_concat, List.getLast?_eq_some_iff] at hlast
  obtain ⟨folders', hroute⟩ := hlast
  have hroot : ServiceImport.segment i.fromRoot = Path.stemOfBase name := by
    rw [fromRoot, hnames]
    exact ServiceImport.segment_append_join "~/" (by simp) folders hname
  rw [hroot, fromHome, Path.relativeSpecifier, hroute]
  split
  · rw [← ServiceImport.segment_append_join "" (by simp) folders' hname, String.empty_append]
  · exact (ServiceImport.segment_append_join "./" (by simp) folders' hname).symm

/-- **Services.** Where both specifiers end with the name of the module, the rule on services has
the same messages for both spellings if both mention `react` or neither does. A spelling that
mentions it is passed over. -/
theorem services_alike (h : i.ImportedTwice statement statement' ctx) (hbelow : i.below ≠ [])
    (hlast : (Path.route i.home i.place).getLast? = i.below.getLast?) :
    (ServiceImport.mentionsReact i.fromRoot = ServiceImport.mentionsReact i.fromHome →
      ServiceImport.messageIds statement ctx = ServiceImport.messageIds statement' ctx) ∧
    (ServiceImport.mentionsReact i.fromRoot = true →
      ServiceImport.messageIds statement ctx = []) ∧
    (ServiceImport.mentionsReact i.fromHome = true →
      ServiceImport.messageIds statement' ctx = []) := by
  refine ⟨fun hreact => ?_, ServiceImport.messageIds_of_mentionsReact h.fromRoot_eq,
    ServiceImport.messageIds_of_mentionsReact h.fromHome_eq⟩
  obtain ⟨hroot, hhome⟩ := h.resolved
  have htarget : ServiceImport.target? i.fromRoot ctx = ServiceImport.target? i.fromHome ctx := by
    rw [ServiceImport.target?, ServiceImport.target?, hroot, hhome]
  exact ServiceImport.messageIds_congr h.fromRoot_eq h.fromHome_eq hreact htarget
    (i.segment_alike hbelow hlast) h.bindings_eq h.typesOnly_eq

theorem services_alike_cart :
    cartService.fromRoot = "~/features/cart/services/userService" ∧
      cartService.fromHome = "../services/userService" ∧
      ServiceImport.messageIds (importOf cartService.fromRoot "user") cartService.shopFile =
        ["directServiceImport"] ∧
      ServiceImport.messageIds (importOf cartService.fromHome "user") cartService.shopFile =
        ["directServiceImport"] := by
  have hroot : ServiceImport.messageIds (importOf cartService.fromRoot "user")
      cartService.shopFile = ["directServiceImport"] := by decide +kernel
  have halike := (services_alike (cartService.importedTwice_shopFile "user") (by decide)
    (by decide +kernel)).1 (by decide +kernel)
  exact ⟨by decide +kernel, by decide +kernel, hroot, halike.symm.trans hroot⟩

/-- In a slice that has `react` in its name the spelling from the source root on is passed over, and
the one along the route is reported. -/
theorem not_services_alike :
    FileKind.isComponent reactCartService.importer = true ∧
      (Path.route reactCartService.home reactCartService.place).getLast? =
        reactCartService.below.getLast? ∧
      reactCartService.ImportedTwice (importOf reactCartService.fromRoot "userService")
        (importOf reactCartService.fromHome "userService") reactCartService.shopFile ∧
      ServiceImport.messageIds (importOf reactCartService.fromRoot "userService")
        reactCartService.shopFile = [] ∧
      ServiceImport.messageIds (importOf reactCartService.fromHome "userService")
        reactCartService.shopFile = ["directServiceImport"] :=
  ⟨by decide +kernel, by decide +kernel, reactCartService.importedTwice_shopFile "userService",
    by decide +kernel, by decide +kernel⟩

end LocalImport

end SliceLint
