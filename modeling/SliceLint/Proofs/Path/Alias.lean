import SliceLint.Proofs.Config.Reading
import SliceLint.Proofs.Table

/-!
# The alias of a specifier

Of the aliases whose prefixes lead a specifier, the one with the longest prefix counts
(`Aliases.IsLongest`).

**Finding it** (`Aliases.isLongestOf_longest?`). The aliases are gone through one by one. What carries
the proof is that the alias kept so far is the longest of those seen (`Aliases.IsLongestOf`).

**Order** (`Aliases.longest?_perm`). Two prefixes of one text that are equally long are one prefix, and
a configuration has no prefix twice (`Config.ReadFrom.nodup_prefixes`). So there is one longest alias
(`Aliases.IsLongest.unique`), and the order in which aliases come does not matter.
-/

namespace SliceLint

namespace Aliases

variable {aliases order : Aliases} {specifier : String} {entry : String × String}

/-! ## The longest alias -/

/-- The prefix of the entry leads the specifier, and no longer prefix does. -/
structure IsLongest (aliases : Aliases) (specifier : String) (entry : String × String) : Prop where
  mem : entry ∈ aliases
  leads : entry.1.toList <+: specifier.toList
  longest : ∀ other ∈ aliases, other.1.toList <+: specifier.toList →
    other.1.length ≤ entry.1.length

/-- The longest alias of a specifier, or none where no prefix leads it. -/
def IsLongestOf (aliases : Aliases) (specifier : String) : Option (String × String) → Prop
  | none => ∀ entry ∈ aliases, ¬ entry.1.toList <+: specifier.toList
  | some entry => aliases.IsLongest specifier entry

theorem IsLongest.concat_of_le {kept : String × String} (h : aliases.IsLongest specifier kept)
    (hle : entry.1.toList <+: specifier.toList → entry.1.length ≤ kept.1.length) :
    IsLongest (aliases ++ [entry]) specifier kept where
  mem := List.mem_append_left _ h.mem
  leads := h.leads
  longest := List.forall_mem_append.2 ⟨h.longest, List.forall_mem_singleton.2 hle⟩

theorem isLongest_concat (hleads : entry.1.toList <+: specifier.toList)
    (hlonger : ∀ other ∈ aliases, other.1.toList <+: specifier.toList →
      other.1.length ≤ entry.1.length) :
    IsLongest (aliases ++ [entry]) specifier entry where
  mem := List.mem_append_right _ (List.mem_singleton_self entry)
  leads := hleads
  longest := List.forall_mem_append.2
    ⟨hlonger, List.forall_mem_singleton.2 fun _ => Nat.le_refl _⟩

/-- One more alias replaces the one kept so far where its prefix leads the specifier and is longer. -/
theorem longest?_concat (aliases : Aliases) (entry : String × String) (specifier : String) :
    longest? (aliases ++ [entry]) specifier =
      if entry.1.toList.isPrefixOf specifier.toList then
        match aliases.longest? specifier with
        | none => some entry
        | some best => if best.1.length < entry.1.length then some entry else some best
      else aliases.longest? specifier := by
  rw [longest?, List.foldl_append]
  rfl

theorem isLongestOf_longest? (aliases : Aliases) (specifier : String) :
    aliases.IsLongestOf specifier (aliases.longest? specifier) := by
  induction aliases using List.reverseRecOn with
  | nil => exact fun _ hentry => absurd hentry List.not_mem_nil
  | append_singleton aliases entry ih =>
    rw [longest?_concat]
    split
    · rename_i hleads
      rw [List.isPrefixOf_iff_prefix] at hleads
      cases hkept : longest? aliases specifier with
      | none =>
        rw [hkept] at ih
        exact isLongest_concat hleads fun other hother hlead => absurd hlead (ih other hother)
      | some kept =>
        rw [hkept] at ih
        dsimp only
        split
        · rename_i hlonger
          exact isLongest_concat hleads fun other hother hlead =>
            Nat.le_trans (ih.longest other hother hlead) (Nat.le_of_lt hlonger)
        · rename_i hnot
          exact ih.concat_of_le fun _ => Nat.le_of_not_lt hnot
    · rename_i hleads
      rw [List.isPrefixOf_iff_prefix] at hleads
      cases hkept : longest? aliases specifier with
      | none =>
        rw [hkept] at ih
        exact List.forall_mem_append.2 ⟨ih, List.forall_mem_singleton.2 hleads⟩
      | some kept =>
        rw [hkept] at ih
        exact ih.concat_of_le fun hlead => absurd hlead hleads

theorem longest?_eq_none_iff :
    aliases.longest? specifier = none ↔
      ∀ entry ∈ aliases, ¬ entry.1.toList <+: specifier.toList := by
  have hlongest := isLongestOf_longest? aliases specifier
  constructor
  · intro hnone
    rwa [hnone] at hlongest
  · intro hnone
    cases hfound : aliases.longest? specifier with
    | none => rfl
    | some entry =>
      rw [hfound] at hlongest
      exact absurd hlongest.leads (hnone entry hlongest.mem)

/-! ## One longest alias -/

/-- Equally long prefixes of one text are one prefix. -/
theorem IsLongest.unique {other : String × String} (hdistinct : (aliases.map Prod.fst).Nodup)
    (h : aliases.IsLongest specifier entry) (hother : aliases.IsLongest specifier other) :
    other = entry := by
  have hlength : other.1.length = entry.1.length :=
    Nat.le_antisymm (h.longest other hother.mem hother.leads)
      (hother.longest entry h.mem h.leads)
  have hshorter : other.1.toList <+: entry.1.toList :=
    List.prefix_of_prefix_length_le hother.leads h.leads (Nat.le_of_eq hlength)
  have hlead : other.1 = entry.1 := String.toList_inj.1 (hshorter.eq_of_length hlength)
  exact List.inj_on_of_nodup_map hdistinct hother.mem h.mem hlead

theorem longest?_eq_some_iff (hdistinct : (aliases.map Prod.fst).Nodup) :
    aliases.longest? specifier = some entry ↔ aliases.IsLongest specifier entry := by
  have hlongest := isLongestOf_longest? aliases specifier
  constructor
  · intro hfound
    rwa [hfound] at hlongest
  · intro hentry
    cases hfound : aliases.longest? specifier with
    | none =>
      rw [hfound] at hlongest
      exact absurd hentry.leads (hlongest entry hentry.mem)
    | some found =>
      rw [hfound] at hlongest
      rw [hentry.unique hdistinct hlongest]

theorem IsLongest.of_perm (hperm : order.Perm aliases) (h : aliases.IsLongest specifier entry) :
    order.IsLongest specifier entry where
  mem := hperm.mem_iff.2 h.mem
  leads := h.leads
  longest := fun other hother => h.longest other (hperm.mem_iff.1 hother)

theorem longest?_perm (hdistinct : (aliases.map Prod.fst).Nodup) (hperm : order.Perm aliases)
    (specifier : String) : order.longest? specifier = aliases.longest? specifier := by
  have hlongest := isLongestOf_longest? aliases specifier
  cases hfound : aliases.longest? specifier with
  | none =>
    rw [hfound] at hlongest
    exact longest?_eq_none_iff.2 fun entry hentry => hlongest entry (hperm.mem_iff.1 hentry)
  | some entry =>
    rw [hfound] at hlongest
    exact (longest?_eq_some_iff ((hperm.map Prod.fst).nodup_iff.2 hdistinct)).2
      (hlongest.of_perm hperm)

end Aliases

/-! ## Configured aliases -/

/-- Aliases that are put one by one have no prefix twice. -/
theorem Config.nodup_prefixes_of_put {entries : List (Value × Value)} {kept aliases : Aliases}
    (hkept : (kept.map Prod.fst).Nodup)
    (h : entries.foldlM (fun aliases (k, v) =>
      if k.plain == "" then Except.error ConfigFault.emptyAlias
      else .ok (putEntry aliases k.plain v.plain)) kept = .ok aliases) :
    (aliases.map Prod.fst).Nodup := by
  induction entries generalizing kept with
  | nil =>
    cases h
    exact hkept
  | cons entry entries ih =>
    obtain ⟨next, hnext, h⟩ := bind_eq_ok h
    refine ih ?_ h
    dsimp only at hnext
    split at hnext
    · cases hnext
    · cases hnext
      exact nodup_keys_putEntry hkept _ _

theorem Config.ReadFrom.nodup_prefixes {v : Value} {c : Config} (h : ReadFrom v c) :
    (c.aliases.map Prod.fst).Nodup := by
  have haliases := h.aliases
  unfold readAliases at haliases
  split at haliases
  · rw [← Except.ok.inj haliases]
    simp [standardAliases, standardPrefixes]
  · exact nodup_prefixes_of_put (by simp) haliases
  · cases haliases

/-! ## Specifiers -/

/-- A folder without the slashes at its end. -/
def Path.trimmedEnd (folder : String) : String :=
  String.ofList (folder.toList.rdropWhile (· == '/'))

theorem resolveImport?_of_longest? {aliases : Aliases} {specifier lead target rest : String}
    (h : aliases.longest? specifier = some (lead, target)) (hrest : specifier = lead ++ rest)
    (importer : String) :
    resolveImport? specifier importer aliases =
      some (Path.normalize (Path.trimmedEnd target ++ "/" ++ rest)) := by
  have hdrop : specifier.toList.drop lead.length = rest.toList := by
    rw [hrest]
    simp [String.length]
  rw [resolveImport?, h]
  dsimp only
  rw [hdrop, String.ofList_toList]
  rfl

theorem resolveImport?_of_longest?_eq_none {aliases : Aliases} {specifier : String}
    (h : aliases.longest? specifier = none) (importer : String) :
    resolveImport? specifier importer aliases =
      if isRelative specifier then
        (some (Path.normalize (Path.under (Path.directory importer) specifier))).filter
          fun path => !path.startsWith ".."
      else none := by
  rw [resolveImport?, h]
  dsimp only
  split
  · rw [Option.filter_some]
    cases (Path.normalize (Path.under (Path.directory importer) specifier)).startsWith ".." <;> rfl
  · rfl

/-- **Aliases.** Take the aliases of a configuration in any order: a specifier is resolved as it is in
the order of the configuration. Where a prefix leads the specifier, there is one alias with the
longest such prefix, and what follows the prefix names a path below the target of that alias. Where
none does, the specifier is relative to the importing file, or it names a package. -/
theorem alias_resolution {v : Value} {c : Config} (hc : Config.ofValue v = .ok c)
    {order : Aliases} (hperm : order.Perm c.aliases) (specifier importer : String) :
    resolveImport? specifier importer order = resolveImport? specifier importer c.aliases ∧
    ((∃ entry ∈ c.aliases, entry.1.toList <+: specifier.toList) →
      ∃! entry, c.aliases.IsLongest specifier entry) ∧
    (∀ lead target rest, specifier = lead ++ rest →
      c.aliases.IsLongest specifier (lead, target) →
      resolveImport? specifier importer c.aliases =
        some (Path.normalize (Path.trimmedEnd target ++ "/" ++ rest))) ∧
    ((∀ entry ∈ c.aliases, ¬ entry.1.toList <+: specifier.toList) →
      resolveImport? specifier importer c.aliases =
        if isRelative specifier then
          (some (Path.normalize (Path.under (Path.directory importer) specifier))).filter
            fun path => !path.startsWith ".."
        else none) := by
  have hdistinct := (Config.readFrom_of_ofValue hc).nodup_prefixes
  refine ⟨?_, ?_, ?_, ?_⟩
  · rw [resolveImport?, resolveImport?, Aliases.longest?_perm hdistinct hperm]
  · rintro ⟨entry, hentry, hleads⟩
    have hlongest := Aliases.isLongestOf_longest? c.aliases specifier
    cases hfound : c.aliases.longest? specifier with
    | none =>
      rw [hfound] at hlongest
      exact absurd hleads (hlongest entry hentry)
    | some found =>
      rw [hfound] at hlongest
      exact ⟨found, hlongest, fun other hother => hlongest.unique hdistinct hother⟩
  · intro lead target rest hrest hlongest
    exact resolveImport?_of_longest? ((Aliases.longest?_eq_some_iff hdistinct).2 hlongest) hrest
      importer
  · intro hnone
    exact resolveImport?_of_longest?_eq_none (Aliases.longest?_eq_none_iff.2 hnone) importer

/-- A document whose aliases lead each other and relative specifiers. -/
def Shop.nestedAliases : Value :=
  .mapping [(.text "aliases", .mapping
    [(.text "./", .text "app/"), (.text "~/", .text "app"), (.text "./lib/", .text "lib//")])]

/-- With the aliases in another order, `./lib/cart` is the cart of the library, and no file next to the
importing one or below `app`. -/
theorem alias_resolution_nested :
    ∃ c, Config.ofValue Shop.nestedAliases = .ok c ∧
      [("./lib/", "lib//"), ("~/", "app"), ("./", "app/")].Perm c.aliases ∧
      resolveImport? "./lib/cart" "app/root.ts"
        [("./lib/", "lib//"), ("~/", "app"), ("./", "app/")] = some "lib/cart" := by
  let aliases := [("./", "app/"), ("~/", "app"), ("./lib/", "lib//")]
  let c : Config := { Config.standard with aliases := aliases }
  have hc : Config.ofValue Shop.nestedAliases = .ok c := rfl
  have hperm : [("./lib/", "lib//"), ("~/", "app"), ("./", "app/")].Perm c.aliases := by
    decide
  have hlongest : c.aliases.IsLongest "./lib/cart" ("./lib/", "lib//") :=
    ⟨by decide, by decide, by decide⟩
  obtain ⟨horder, -, hexpand, -⟩ := alias_resolution hc hperm "./lib/cart" "app/root.ts"
  refine ⟨c, hc, hperm, horder.trans ((hexpand "./lib/" "lib//" "cart" rfl hlongest).trans ?_)⟩
  decide +kernel

end SliceLint
