import SliceLint.Proofs.Engine.Independence
import SliceLint.Proofs.Hierarchy.Direction
import SliceLint.Rule.LayerBoundary
import Mathlib.Data.Fin.VecNotation
import Mathlib.Order.Fin.Basic

/-!
# Cycles of imports are reported

A closed chain of files, each of which imports the next, cannot stay within the boundaries of
layers and slices.

**Layers.** Where the hierarchy allows a step to another layer, the step leads to a lower rank. A
closed chain comes back to the rank it starts from. So either it stays within one layer or some
step is not allowed (`ImportCycle.layer_reported`).

**Slices.** A closed chain within one layer comes back to the slice it starts from. So either it
stays within one slice or some step leads across (`ImportCycle.slice_reported`).
-/

namespace SliceLint

/-! ## Going around -/

section Around

variable {n : ℕ}

/-- A value that no step around a circle changes is the same everywhere. -/
theorem eq_of_around {α : Type} {f : Fin (n + 1) → α} (h : ∀ i, f (i + 1) = f i)
    (i j : Fin (n + 1)) : f i = f j := by
  have hzero : ∀ i, f i = f 0 := by
    intro i
    induction i using Fin.induction with
    | zero => rfl
    | succ i ih => rw [← Fin.coeSucc_eq_succ, h, ih]
  rw [hzero i, hzero j]

/-- A number that no step around a circle raises is changed by no step. -/
theorem eq_of_le_around {f : Fin (n + 1) → ℕ} (h : ∀ i, f (i + 1) ≤ f i) (i : Fin (n + 1)) :
    f (i + 1) = f i := by
  have hfrom : ∀ i, f i ≤ f 0 := by
    intro i
    induction i using Fin.induction with
    | zero => exact Nat.le_refl _
    | succ i ih =>
      rw [← Fin.coeSucc_eq_succ]
      exact (h _).trans ih
  have hto : ∀ i, f 0 ≤ f i := by
    intro i
    induction i using Fin.reverseInduction with
    | last =>
      have hlast := h (Fin.last n)
      rwa [Fin.last_add_one] at hlast
    | cast i ih =>
      have hstep := h i.castSucc
      rw [Fin.coeSucc_eq_succ] at hstep
      exact ih.trans hstep
  exact Nat.le_antisymm (h i) ((hfrom i).trans (hto (i + 1)))

end Around

/-! ## Imports -/

/-- An import statement in a file. -/
structure ImportSite where
  file : FileContext
  tree : Tree
  visit : Visit
  inTree : visit ∈ tree.walk
  isImport : visit.node.kind = "import_statement"

namespace ImportSite

/-- The specifier of the statement resolves to a path with the coordinate. -/
def LeadsTo (site : ImportSite) (target : Coordinate) : Prop :=
  ∃ source path, site.visit.node.importSource? = some source ∧
    resolveImport? source site.file.relPath site.file.run.aliases = some path ∧
    Coordinate.ofPath? path site.file.run.sourceRoot = some target

/-- The rule on layers and slices reports the statement under a message. -/
def Reported (site : ImportSite) (messageId : String) : Prop :=
  ∃ f ∈ LayerBoundary.check site.visit.node site.file, f.messageId = messageId ∧
    (LayerBoundary.rule, f) ∈
      (traceOf [LayerBoundary.rule] site.file site.tree).flatMap Call.findings

variable {site : ImportSite} {importer target : Coordinate}

theorem import?_of_leadsTo (hfile : site.file.coordinate = some importer)
    (hleads : site.LeadsTo target) :
    ∃ i, LayerBoundary.import? site.visit.node site.file = some i ∧ i.importer = importer ∧
      i.target = target := by
  obtain ⟨source, path, hsource, hpath, htarget⟩ := hleads
  refine ⟨⟨importer, target, path, hookNames site.visit.node.importBindings,
    site.visit.node.start⟩, ?_, rfl, rfl⟩
  simp [LayerBoundary.import?, hfile, hsource, hpath, htarget]

theorem reported_of_mem_check {f : Finding}
    (hf : f ∈ LayerBoundary.check site.visit.node site.file) : site.Reported f.messageId := by
  have hkind : site.visit.node.kind ∈ ["import_statement"] := by
    rw [site.isImport]
    exact List.mem_singleton_self _
  exact ⟨f, hf, rfl, Rule.mem_findings_ofNodes site.inTree hkind hf⟩

theorem reported_of_not_allows (hfile : site.file.coordinate = some importer)
    (hleads : site.LeadsTo target) (hlayer : importer.layer ≠ target.layer)
    (hallows : site.file.run.hierarchy.allows importer.layer target.layer = false) :
    site.Reported "invalidLayerImport" := by
  obtain ⟨i, hi, rfl, rfl⟩ := import?_of_leadsTo hfile hleads
  have hcond : (i.importer.layer != i.target.layer &&
      !site.file.run.hierarchy.allows i.importer.layer i.target.layer) = true := by
    rw [hallows, bne_iff_ne.2 hlayer]
    rfl
  have hmem : ∀ f ∈ LayerBoundary.checkDirection site.file.run.hierarchy i,
      f ∈ LayerBoundary.check site.visit.node site.file := by
    intro f hf
    simp only [LayerBoundary.check, hi, List.mem_append]
    exact Or.inl (Or.inl (Or.inl (Or.inr hf)))
  simp only [LayerBoundary.checkDirection, if_pos hcond] at hmem
  exact reported_of_mem_check (hmem _ (List.mem_singleton_self _))

theorem reported_of_ne_slice (hfile : site.file.coordinate = some importer)
    (hleads : site.LeadsTo target) (hlayer : importer.layer = target.layer)
    (hshared : importer.layer ≠ .shared) {own other : String} (hown : importer.slice = some own)
    (hother : target.slice = some other) (hne : own ≠ other) :
    site.Reported "crossSliceImport" := by
  obtain ⟨i, hi, rfl, rfl⟩ := import?_of_leadsTo hfile hleads
  have hcond : (i.importer.layer == i.target.layer && i.importer.layer != .shared &&
      own != other) = true := by
    rw [beq_iff_eq.2 hlayer, bne_iff_ne.2 hshared, bne_iff_ne.2 hne]
    rfl
  have hmem : ∀ f ∈ LayerBoundary.checkSlices i,
      f ∈ LayerBoundary.check site.visit.node site.file := by
    intro f hf
    simp only [LayerBoundary.check, hi, List.mem_append]
    exact Or.inl (Or.inl (Or.inr hf))
  simp only [LayerBoundary.checkSlices, hown, hother, if_pos hcond] at hmem
  exact reported_of_mem_check (hmem _ (List.mem_singleton_self _))

end ImportSite

/-! ## Cycles -/

/-- A closed chain of files within one hierarchy: each imports the next, and the last the first. -/
structure ImportCycle (h : Hierarchy) (n : ℕ) where
  sites : Fin (n + 1) → ImportSite
  coordinates : Fin (n + 1) → Coordinate
  classified : ∀ i, (sites i).file.coordinate = some (coordinates i)
  governed : ∀ i, (sites i).file.run.hierarchy = h
  closed : ∀ i, (sites i).LeadsTo (coordinates (i + 1))

namespace ImportCycle

variable {h : Hierarchy} {n : ℕ}

/-- A cycle that leaves a layer has an import that is reported as one between layers. -/
theorem layer_reported {v : Value} (hv : Hierarchy.ofValue v = .ok h) (cycle : ImportCycle h n)
    (hlayers : ∃ i j, (cycle.coordinates i).layer ≠ (cycle.coordinates j).layer) :
    ∃ i, (cycle.sites i).Reported "invalidLayerImport" := by
  obtain ⟨rank, hrank⟩ := Hierarchy.exists_rank hv
  by_contra hnone
  have hallowed : ∀ i, (cycle.coordinates i).layer ≠ (cycle.coordinates (i + 1)).layer →
      h.allows (cycle.coordinates i).layer (cycle.coordinates (i + 1)).layer = true := by
    intro i hne
    by_contra hnot
    refine hnone ⟨i, ImportSite.reported_of_not_allows (cycle.classified i) (cycle.closed i) hne ?_⟩
    rw [cycle.governed i]
    exact eq_false_of_ne_true hnot
  have hstep : ∀ i, rank (cycle.coordinates (i + 1)).layer ≤ rank (cycle.coordinates i).layer := by
    intro i
    by_cases heq : (cycle.coordinates i).layer = (cycle.coordinates (i + 1)).layer
    · rw [heq]
    · exact (hrank _ _ heq (hallowed i heq)).le
  have hlevel := eq_of_le_around (f := fun i => rank (cycle.coordinates i).layer) hstep
  have hsame : ∀ i, (cycle.coordinates (i + 1)).layer = (cycle.coordinates i).layer := by
    intro i
    by_contra hne
    exact (hrank _ _ (Ne.symm hne) (hallowed i (Ne.symm hne))).ne (hlevel i)
  obtain ⟨i, j, hij⟩ := hlayers
  exact hij (eq_of_around (f := fun i => (cycle.coordinates i).layer) hsame i j)

/-- A cycle within a layer that leaves a slice has an import that is reported as one between
slices. -/
theorem slice_reported (cycle : ImportCycle h n)
    (hlayers : ∀ i j, (cycle.coordinates i).layer = (cycle.coordinates j).layer)
    (hsliced : ∀ i, (cycle.coordinates i).layer ≠ .shared ∧ (cycle.coordinates i).slice ≠ none)
    (hslices : ∃ i j, (cycle.coordinates i).slice ≠ (cycle.coordinates j).slice) :
    ∃ i, (cycle.sites i).Reported "crossSliceImport" := by
  choose slices hslice using fun i => Option.ne_none_iff_exists'.1 (hsliced i).2
  by_contra hnone
  have hsame : ∀ i, slices (i + 1) = slices i := by
    intro i
    by_contra hne
    exact hnone ⟨i, ImportSite.reported_of_ne_slice (cycle.classified i) (cycle.closed i)
      (hlayers i (i + 1)) (hsliced i).1 (hslice i) (hslice (i + 1)) (Ne.symm hne)⟩
  obtain ⟨i, j, hij⟩ := hslices
  rw [hslice i, hslice j, eq_of_around hsame i j] at hij
  exact hij rfl

/-- **No cycle stays unseen.** Of a closed chain of imports, of any length and under any accepted
hierarchy, at least one import is reported: as one between layers if the files lie in different
layers, and as one between slices if they lie in different slices of one layer that has slices. -/
theorem cycle_reported {v : Value} (hv : Hierarchy.ofValue v = .ok h) (cycle : ImportCycle h n) :
    ((∃ i j, (cycle.coordinates i).layer ≠ (cycle.coordinates j).layer) →
      ∃ i, (cycle.sites i).Reported "invalidLayerImport") ∧
    ((∀ i j, (cycle.coordinates i).layer = (cycle.coordinates j).layer) →
      (∀ i, (cycle.coordinates i).layer ≠ .shared ∧ (cycle.coordinates i).slice ≠ none) →
      (∃ i j, (cycle.coordinates i).slice ≠ (cycle.coordinates j).slice) →
      ∃ i, (cycle.sites i).Reported "crossSliceImport") :=
  ⟨cycle.layer_reported hv, cycle.slice_reported⟩

/-! ## Two files that import each other -/

/-- A cycle of two files. -/
def ofTwo (a b : ImportSite) (ca cb : Coordinate) (ha : a.file.coordinate = some ca)
    (hb : b.file.coordinate = some cb) (hga : a.file.run.hierarchy = h)
    (hgb : b.file.run.hierarchy = h) (hab : a.LeadsTo cb) (hba : b.LeadsTo ca) :
    ImportCycle h 1 where
  sites := ![a, b]
  coordinates := ![ca, cb]
  classified := Fin.forall_fin_two.2 ⟨ha, hb⟩
  governed := Fin.forall_fin_two.2 ⟨hga, hgb⟩
  closed := Fin.forall_fin_two.2 ⟨hab, hba⟩

/-- The only import of a file of the shop. -/
def shopImport (relPath specifier : String) : ImportSite :=
  let statement : Tree := .branch "import_statement" "" .origin
    [.leaf "string" true ("'" ++ specifier ++ "'") .origin]
  let tree : Tree := .branch programKind "" .origin [statement]
  { file := ⟨"/shop/" ++ relPath, relPath, "", Coordinate.ofPath? relPath "app",
      .build "/shop" "app" [("~/", "app/")] .standard []
        ⟨fun _ => .ok true, fun _ => .ok ""⟩⟩
    tree := tree
    visit := ⟨statement, [tree]⟩
    inTree := .tail _ (.head _)
    isImport := rfl }

/-- A feature and a widget that import each other. -/
def layersOfShop : ImportCycle .standard 1 := ofTwo
  (shopImport "app/features/cart/api.ts" "~/widgets/menu/list.ts")
  (shopImport "app/widgets/menu/list.ts" "~/features/cart/api.ts")
  ⟨.features, some "cart"⟩ ⟨.widgets, some "menu"⟩
  (by decide +kernel) (by decide +kernel) rfl rfl
  ⟨"~/widgets/menu/list.ts", "app/widgets/menu/list.ts", by decide +kernel, by decide +kernel,
    by decide +kernel⟩
  ⟨"~/features/cart/api.ts", "app/features/cart/api.ts", by decide +kernel, by decide +kernel,
    by decide +kernel⟩

/-- Two features that import each other. -/
def slicesOfShop : ImportCycle .standard 1 := ofTwo
  (shopImport "app/features/cart/api.ts" "~/features/user/api.ts")
  (shopImport "app/features/user/api.ts" "~/features/cart/api.ts")
  ⟨.features, some "cart"⟩ ⟨.features, some "user"⟩
  (by decide +kernel) (by decide +kernel) rfl rfl
  ⟨"~/features/user/api.ts", "app/features/user/api.ts", by decide +kernel, by decide +kernel,
    by decide +kernel⟩
  ⟨"~/features/cart/api.ts", "app/features/cart/api.ts", by decide +kernel, by decide +kernel,
    by decide +kernel⟩

theorem cycle_reported_shop :
    (∃ i, (layersOfShop.sites i).Reported "invalidLayerImport") ∧
      ∃ i, (slicesOfShop.sites i).Reported "crossSliceImport" := by
  constructor
  · have hlayers : Layer.features ≠ Layer.widgets := by decide
    exact (cycle_reported Hierarchy.ofValue_standard layersOfShop).1 ⟨0, 1, hlayers⟩
  · have hlayer : ∀ i, (slicesOfShop.coordinates i).layer = .features :=
      Fin.forall_fin_two.2 ⟨rfl, rfl⟩
    have hsliced : ∀ i, (slicesOfShop.coordinates i).layer ≠ .shared ∧
        (slicesOfShop.coordinates i).slice ≠ none :=
      Fin.forall_fin_two.2 ⟨⟨nofun, nofun⟩, ⟨nofun, nofun⟩⟩
    have hslices : some "cart" ≠ some "user" := by decide
    exact (cycle_reported Hierarchy.ofValue_standard slicesOfShop).2
      (fun i j => (hlayer i).trans (hlayer j).symm) hsliced ⟨0, 1, hslices⟩

end ImportCycle

end SliceLint
