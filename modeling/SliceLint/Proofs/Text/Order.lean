import SliceLint.Text.Order
import Mathlib.Data.List.Nodup

/-!
# Sorting and telling apart

`sorted` reorders a list and puts smaller texts first. `distinct` keeps the members of a list and
drops the repetitions.
-/

namespace SliceLint.Text

/-! ## Sorting -/

theorem sorted_perm (texts : List String) : (sorted texts).Perm texts :=
  List.mergeSort_perm texts _

theorem mem_sorted {texts : List String} {s : String} : s ∈ sorted texts ↔ s ∈ texts :=
  (sorted_perm texts).mem_iff

theorem pairwise_sorted (texts : List String) : (sorted texts).Pairwise (· ≤ ·) := by
  have h : (sorted texts).Pairwise fun a b => decide (a ≤ b) = true :=
    List.pairwise_mergeSort
      (fun a b c hab hbc => by
        simp only [decide_eq_true_eq] at hab hbc ⊢
        exact String.le_trans hab hbc)
      (fun a b => by
        simp only [Bool.or_eq_true, decide_eq_true_eq]
        exact String.le_total a b)
      texts
  exact h.imp fun hab => of_decide_eq_true hab

theorem pairwise_lt_sorted {texts : List String} (h : texts.Nodup) :
    (sorted texts).Pairwise (· < ·) :=
  ((pairwise_sorted texts).and ((sorted_perm texts).nodup_iff.2 h)).imp fun ⟨hle, hne⟩ =>
    Decidable.byContradiction fun hlt => hne (String.le_antisymm hle (String.not_lt.1 hlt))

theorem nodup_of_pairwise_lt {texts : List String} (h : texts.Pairwise (· < ·)) : texts.Nodup := by
  refine h.imp fun {s t} hlt heq => ?_
  rw [heq] at hlt
  exact String.lt_irrefl t hlt

theorem sorted_eq_of_perm {texts ordered : List String} (hperm : ordered.Perm texts)
    (hordered : ordered.Pairwise (· ≤ ·)) : sorted texts = ordered :=
  List.Perm.eq_of_pairwise (fun _ _ _ _ hab hba => String.le_antisymm hab hba)
    (pairwise_sorted texts) hordered ((sorted_perm texts).trans hperm.symm)

theorem eq_of_pairwise_lt {texts others : List String} (htexts : texts.Pairwise (· < ·))
    (hothers : others.Pairwise (· < ·)) (h : ∀ s, s ∈ texts ↔ s ∈ others) : texts = others := by
  have hperm : texts.Perm others :=
    (List.perm_ext_iff_of_nodup (nodup_of_pairwise_lt htexts) (nodup_of_pairwise_lt hothers)).2 h
  exact hperm.eq_of_pairwise (fun s t _ _ hst hts => absurd hts (String.lt_asymm hst)) htexts
    hothers

/-! ## Telling apart -/

section Distinct

variable {α : Type} [BEq α] [LawfulBEq α]

/-- What the loop of `distinct` keeps: the members seen so far, each once. -/
theorem distinct_loop (xs kept : List α) (hkept : kept.Nodup) :
    (xs.foldl (fun kept x => if kept.contains x then kept else kept ++ [x]) kept).Nodup ∧
      ∀ x, x ∈ xs.foldl (fun kept x => if kept.contains x then kept else kept ++ [x]) kept ↔
        x ∈ kept ∨ x ∈ xs := by
  induction xs generalizing kept with
  | nil => simpa using hkept
  | cons y ys ih =>
    rw [List.foldl_cons]
    by_cases hy : y ∈ kept
    · rw [if_pos (List.contains_iff_mem.2 hy)]
      obtain ⟨hnodup, hmem⟩ := ih kept hkept
      refine ⟨hnodup, fun x => ?_⟩
      rw [hmem x, List.mem_cons]
      constructor
      · rintro (hx | hx)
        · exact Or.inl hx
        · exact Or.inr (Or.inr hx)
      · rintro (hx | rfl | hx)
        · exact Or.inl hx
        · exact Or.inl hy
        · exact Or.inr hx
    · rw [if_neg (fun h => hy (List.contains_iff_mem.1 h))]
      have hnew : (kept ++ [y]).Nodup := by
        rw [List.nodup_append]
        exact ⟨hkept, List.nodup_singleton y, fun a ha b hb => by
          rw [List.mem_singleton.1 hb]
          rintro rfl
          exact hy ha⟩
      obtain ⟨hnodup, hmem⟩ := ih (kept ++ [y]) hnew
      refine ⟨hnodup, fun x => ?_⟩
      rw [hmem x, List.mem_append, List.mem_singleton, List.mem_cons, or_assoc]

theorem nodup_distinct (xs : List α) : (distinct xs).Nodup :=
  (distinct_loop xs [] List.nodup_nil).1

theorem mem_distinct {xs : List α} {x : α} : x ∈ distinct xs ↔ x ∈ xs := by
  have h := (distinct_loop xs [] List.nodup_nil).2 x
  rwa [or_iff_right List.not_mem_nil] at h

theorem pairwise_distinct_loop (done todo kept : List α) (hmem : ∀ x, x ∈ kept ↔ x ∈ done)
    (hkept : kept.Pairwise fun x y => (done ++ todo).idxOf x < (done ++ todo).idxOf y) :
    (todo.foldl (fun kept x => if kept.contains x then kept else kept ++ [x]) kept).Pairwise
      fun x y => (done ++ todo).idxOf x < (done ++ todo).idxOf y := by
  induction todo generalizing done kept with
  | nil => exact hkept
  | cons z todo ih =>
    have hsplit : done ++ z :: todo = (done ++ [z]) ++ todo := by simp
    rw [List.foldl_cons]
    by_cases hz : z ∈ kept
    · rw [if_pos (List.contains_iff_mem.2 hz)]
      rw [hsplit] at hkept ⊢
      refine ih (done ++ [z]) kept (fun x => ?_) hkept
      rw [List.mem_append, List.mem_singleton, hmem]
      exact ⟨Or.inl, fun h => h.elim id fun heq => heq ▸ (hmem z).1 hz⟩
    · rw [if_neg (fun h => hz (List.contains_iff_mem.1 h))]
      have hlast : (done ++ z :: todo).idxOf z = done.length := by
        rw [List.idxOf_append, if_neg (fun h => hz ((hmem z).2 h)), List.idxOf_cons_self,
          Nat.zero_add]
      have hnew : (kept ++ [z]).Pairwise fun x y =>
          (done ++ z :: todo).idxOf x < (done ++ z :: todo).idxOf y := by
        refine List.pairwise_append.2 ⟨hkept, List.pairwise_singleton _ _, fun x hx y hy => ?_⟩
        have hdone := (hmem x).1 hx
        rw [List.mem_singleton.1 hy, hlast, List.idxOf_append, if_pos hdone]
        exact List.idxOf_lt_length_iff.2 hdone
      rw [hsplit] at hnew ⊢
      refine ih (done ++ [z]) (kept ++ [z]) (fun x => ?_) hnew
      rw [List.mem_append, List.mem_append, hmem]

theorem pairwise_distinct (xs : List α) :
    (distinct xs).Pairwise fun x y => xs.idxOf x < xs.idxOf y :=
  pairwise_distinct_loop [] xs [] (fun _ => Iff.rfl) List.Pairwise.nil

/-- The loop of `distinct` adds the members that are new, each at its first place. -/
theorem distinct_loop_eq (xs kept : List α) :
    xs.foldl (fun kept x => if kept.contains x then kept else kept ++ [x]) kept =
      kept ++ (xs.filter fun x => !kept.contains x).eraseDups := by
  induction xs generalizing kept with
  | nil => rw [List.foldl_nil, List.filter_nil, List.eraseDups_nil, List.append_nil]
  | cons y ys ih =>
    rw [List.foldl_cons, List.filter_cons]
    by_cases hy : kept.contains y = true
    · rw [if_pos hy, ih, hy, Bool.not_true, if_neg Bool.false_ne_true]
    · rw [if_neg hy, ih, if_pos (by simpa using hy),
        List.eraseDups_cons, List.filter_filter, List.append_assoc, List.singleton_append]
      congr 4
      funext x
      by_cases hx : x = y <;> simp [hx]

theorem distinct_eq_eraseDups (xs : List α) : distinct xs = xs.eraseDups := by
  refine (distinct_loop_eq xs []).trans ?_
  rw [List.nil_append, List.filter_eq_self.2]
  exact fun _ _ => rfl

theorem distinct_eq_self {xs : List α} (h : xs.Nodup) : distinct xs = xs := by
  rw [distinct_eq_eraseDups]
  induction xs with
  | nil => rfl
  | cons x xs ih =>
    obtain ⟨hx, hxs⟩ := List.nodup_cons.1 h
    have hkept : xs.filter (fun y => !y == x) = xs := by
      rw [List.filter_eq_self]
      intro y hy
      have hne : y ≠ x := fun heq => hx (heq ▸ hy)
      simpa using hne
    rw [List.eraseDups_cons, hkept, ih hxs]

end Distinct

end SliceLint.Text
