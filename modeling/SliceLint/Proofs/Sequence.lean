import Mathlib.Data.List.Forall2
import Mathlib.Data.List.Nodup

/-!
# Going through a list

**Corresponding members.** Lists whose members correspond agree in what members that correspond
agree in.

**One member counts.** What a list gives is what one member gives, when the others give nothing.

**Steps that may fail.** Going through a list with a step that may fail succeeds exactly when
every step does, and then gives what the steps give, in order.
-/

namespace SliceLint

/-! ## Members -/

theorem exists_of_mem_forall₂ {α β : Type} {R : α → β → Prop} {xs : List α} {ys : List β}
    (h : List.Forall₂ R xs ys) {y : β} (hy : y ∈ ys) : ∃ x ∈ xs, R x y := by
  induction h with
  | nil => exact absurd hy List.not_mem_nil
  | cons hx _ ih =>
    rcases List.mem_cons.1 hy with rfl | hy
    · exact ⟨_, List.mem_cons_self, hx⟩
    · obtain ⟨x, hmem, hx⟩ := ih hy
      exact ⟨x, List.mem_cons_of_mem _ hmem, hx⟩

theorem exists_forall₂ {α β : Type} {R : α → β → Prop} {xs : List α} (h : ∀ x ∈ xs, ∃ y, R x y) :
    ∃ ys, List.Forall₂ R xs ys := by
  induction xs with
  | nil => exact ⟨[], .nil⟩
  | cons x xs ih =>
    obtain ⟨⟨y, hy⟩, hrest⟩ := List.forall_mem_cons.1 h
    obtain ⟨ys, hys⟩ := ih hrest
    exact ⟨y :: ys, .cons hy hys⟩

theorem map_eq_of_forall₂ {α β γ : Type} {R : α → β → Prop} {f : α → γ} {g : β → γ} {xs : List α}
    {ys : List β} (h : List.Forall₂ R xs ys) (hfg : ∀ x y, R x y → g y = f x) :
    ys.map g = xs.map f := by
  induction h with
  | nil => rfl
  | cons hx _ ih => rw [List.map_cons, List.map_cons, hfg _ _ hx, ih]

/-- The members of a list that is mapped to one value or to none have that value. -/
theorem eq_of_map_eq_ite {α β : Type} {f : α → β} {xs : List α} {c : Bool} {y : β}
    (h : xs.map f = if c then [y] else []) {x : α} (hx : x ∈ xs) : f x = y := by
  have hmem : f x ∈ xs.map f := List.mem_map_of_mem hx
  rw [h, List.mem_ite_nil_right, List.mem_singleton] at hmem
  exact hmem.2

/-- Choices that agree keep members that correspond, and what holds of chosen ones. -/
theorem forall₂_filter {α β : Type} {R S : α → β → Prop} {p : α → Bool} {q : β → Bool}
    {xs : List α} {ys : List β} (h : List.Forall₂ R xs ys) (hpq : ∀ x y, R x y → q y = p x)
    (hS : ∀ x y, R x y → p x = true → S x y) :
    List.Forall₂ S (xs.filter p) (ys.filter q) := by
  induction h with
  | nil => exact .nil
  | @cons x y xs ys hxy _ ih =>
    rw [List.filter_cons, List.filter_cons, hpq x y hxy]
    split
    · rename_i hp
      exact .cons (hS x y hxy hp) ih
    · exact ih

theorem flatMap_eq_of_only {α β : Type} {xs : List α} {f : α → List β} {x : α} (hx : x ∈ xs)
    (hxs : xs.Nodup) (h : ∀ y ∈ xs, y ≠ x → f y = []) : xs.flatMap f = f x := by
  induction xs with
  | nil => exact absurd hx List.not_mem_nil
  | cons y ys ih =>
    obtain ⟨hy, hys⟩ := List.nodup_cons.1 hxs
    rw [List.flatMap_cons]
    rcases List.mem_cons.1 hx with rfl | hx
    · have hrest : ys.flatMap f = [] := by
        rw [List.flatMap_eq_nil_iff]
        intro z hz
        exact h z (List.mem_cons_of_mem _ hz) (by rintro rfl; exact hy hz)
      rw [hrest, List.append_nil]
    · have hne : y ≠ x := by
        rintro rfl
        exact hy hx
      rw [h y List.mem_cons_self hne, List.nil_append]
      exact ih hx hys fun z hz => h z (List.mem_cons_of_mem _ hz)

theorem flatMap_filter_eq {α β : Type} (p : α → Bool) (f : α → List β) (xs : List α) :
    (xs.filter p).flatMap f = xs.flatMap fun x => if p x then f x else [] := by
  induction xs with
  | nil => rfl
  | cons x xs ih =>
    rw [List.filter_cons, List.flatMap_cons, ← ih]
    split
    · rw [List.flatMap_cons]
    · rfl

/-- Parts with a separator between them are the first part, and each other one behind the
separator. -/
theorem intercalate_map_cons {α β : Type} (sep : List β) (part : α → List β) (x : α)
    (xs : List α) : sep.intercalate ((x :: xs).map part) =
      part x ++ xs.flatMap fun y => sep ++ part y := by
  induction xs generalizing x with
  | nil => simp
  | cons y ys ih =>
    rw [List.map_cons, List.map_cons, List.intercalate_cons_cons, List.flatMap_cons,
      ← List.map_cons, ih, List.append_assoc, List.append_assoc]

/-- In a table of the members that have a value, a member is found with its value. -/
theorem lookup_filterMap {α κ β : Type} [BEq κ] [LawfulBEq κ] {key : α → κ}
    (hkey : ∀ x y, key x = key y → x = y) {value? : α → Option β} {xs : List α} {x : α}
    (hx : x ∈ xs ∨ value? x = none) :
    (xs.filterMap fun y => (value? y).map fun v => (key y, v)).lookup (key x) = value? x := by
  induction xs with
  | nil => exact (hx.resolve_left List.not_mem_nil).symm
  | cons y ys ih =>
    have hrest : x ≠ y → x ∈ ys ∨ value? x = none := fun hne =>
      hx.imp_left fun hmem => (List.mem_cons.1 hmem).resolve_left hne
    rw [List.filterMap_cons]
    cases hy : value? y with
    | none =>
      refine ih ?_
      by_cases hxy : x = y
      · exact Or.inr (hxy ▸ hy)
      · exact hrest hxy
    | some v =>
      rw [Option.map_some, List.lookup_cons]
      by_cases hxy : x = y
      · rw [hxy, beq_self_eq_true, hy]
      · rw [beq_eq_false_iff_ne.2 fun heq => hxy (hkey x y heq)]
        exact ih (hrest hxy)

/-! ## Steps that may fail -/

section Steps

variable {ε α β : Type}

theorem bind_eq_ok {x : Except ε α} {f : α → Except ε β} {y : β} (h : x >>= f = .ok y) :
    ∃ a, x = .ok a ∧ f a = .ok y := by
  cases x with
  | error e => cases h
  | ok a => exact ⟨a, rfl, h⟩

theorem bind_eq_error {x : Except ε α} {f : α → Except ε β} {e : ε} (h : x >>= f = .error e) :
    x = .error e ∨ ∃ a, x = .ok a ∧ f a = .error e := by
  cases x with
  | error e' => exact Or.inl (congrArg Except.error (Except.error.inj h))
  | ok a => exact Or.inr ⟨a, rfl, h⟩

theorem map_eq_ok {x : Except ε α} {f : α → β} {y : β} (h : x.map f = .ok y) :
    ∃ a, x = .ok a ∧ f a = y := by
  cases x with
  | error e => cases h
  | ok a => exact ⟨a, rfl, Except.ok.inj h⟩

theorem exists_of_map_toOption {x : Except ε α} {f : α → β} {y : β}
    (h : x.toOption.map f = some y) : ∃ a, x = .ok a ∧ f a = y := by
  cases x with
  | error e => cases h
  | ok a => exact ⟨a, rfl, Option.some.inj h⟩

theorem map_eq_error {x : Except ε α} {f : α → β} {e : ε} (h : x.map f = .error e) :
    x = .error e := by
  cases x with
  | error e' => rw [Except.error.inj h]
  | ok a => cases h

theorem mapM_eq_ok_iff {f : α → Except ε β} {xs : List α} {ys : List β} :
    xs.mapM f = .ok ys ↔ List.Forall₂ (fun x y => f x = .ok y) xs ys := by
  constructor
  · intro h
    induction xs generalizing ys with
    | nil =>
      cases h
      exact .nil
    | cons x xs ih =>
      rw [List.mapM_cons] at h
      obtain ⟨y, hy, h⟩ := bind_eq_ok h
      obtain ⟨ys, hys, h⟩ := bind_eq_ok h
      cases h
      exact .cons hy (ih hys)
  · intro h
    induction h with
    | nil => rfl
    | cons hx _ ih =>
      rw [List.mapM_cons, hx, ih]
      rfl

/-- What stops the steps is that one of them fails. -/
theorem exists_of_mapM_eq_error {f : α → Except ε β} {xs : List α} {e : ε}
    (h : xs.mapM f = .error e) : ∃ x ∈ xs, f x = .error e := by
  induction xs with
  | nil => cases h
  | cons x xs ih =>
    rw [List.mapM_cons] at h
    rcases bind_eq_error h with hx | ⟨y, -, h⟩
    · exact ⟨x, List.mem_cons_self, hx⟩
    rcases bind_eq_error h with hrest | ⟨ys, -, h⟩
    · obtain ⟨x', hx', hfail⟩ := ih hrest
      exact ⟨x', List.mem_cons_of_mem x hx', hfail⟩
    · cases h

theorem exists_of_mem_mapM {f : α → Except ε β} {xs : List α} {ys : List β}
    (h : xs.mapM f = .ok ys) {y : β} (hy : y ∈ ys) : ∃ x ∈ xs, f x = .ok y :=
  exists_of_mem_forall₂ (mapM_eq_ok_iff.1 h) hy

theorem mapM_eq_ok_map {f : α → Except ε β} {g : α → β} {xs : List α}
    (h : ∀ x ∈ xs, f x = .ok (g x)) : xs.mapM f = .ok (xs.map g) := by
  rw [mapM_eq_ok_iff, List.forall₂_map_right_iff, List.forall₂_same]
  exact h

end Steps

end SliceLint
