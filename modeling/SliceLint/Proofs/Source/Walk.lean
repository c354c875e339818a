import SliceLint.Source.Reading

/-!
# The root of a file

A file that can be read has one node that covers all of it, its root: what is read below the root
never has this kind, and a walk meets the root once. This is a law of the reader
(`SourceReader.HasOneRoot`), which the grammar keeps.
-/

namespace SliceLint

namespace Tree

theorem kind_ne_of_isPart {t : Tree} (h : t.IsPart) (hnamed : t.named = true) :
    t.kind ≠ programKind := by
  cases t with
  | node l cs =>
    have hkind : isPartKind l.named l.kind := h.1
    rw [show l.named = true from hnamed] at hkind
    simpa [isPartKind, kind, label] using hkind

theorem isPart_of_mem_children {t c : Tree} (h : t.IsPart) (hc : c ∈ t.children) : c.IsPart := by
  cases t with
  | node l cs => exact areParts_iff.1 h.2 c hc

theorem isPart_fault (start : Position) : (Tree.fault start).IsPart :=
  ⟨Eq.refl true, trivial⟩

theorem kind_ne_of_mem_walkFrom {n : Nat} {pending : List Visit}
    (hpending : ∀ v ∈ pending, v.node.named = true ∧ v.node.IsPart) :
    ∀ v ∈ walkFrom n pending, v.node.kind ≠ programKind := by
  induction n generalizing pending with
  | zero => simp [walkFrom]
  | succ n ih =>
    cases pending with
    | nil => simp [walkFrom]
    | cons first rest =>
      obtain ⟨⟨hnamed, hpart⟩, hrest⟩ := List.forall_mem_cons.1 hpending
      have hnext : ∀ v ∈ first.descend ++ rest, v.node.named = true ∧ v.node.IsPart := by
        intro v hv
        rcases List.mem_append.1 hv with hv | hv
        · obtain ⟨c, hc, rfl⟩ := List.mem_map.1 hv
          obtain ⟨hchild, hcnamed⟩ := List.mem_filter.1 hc
          exact ⟨hcnamed, isPart_of_mem_children hpart hchild⟩
        · exact hrest v hv
      intro v hv
      rw [walkFrom] at hv
      rcases List.mem_cons.1 hv with rfl | hv
      · exact kind_ne_of_isPart hpart hnamed
      · exact ih hnext v hv

theorem walk_filter_program {t : Tree} (hkind : t.kind = programKind)
    (hparts : ∀ c ∈ t.children, c.IsPart) :
    t.walk.filter (fun v => v.node.kind == programKind) = [⟨t, []⟩] := by
  obtain ⟨l, cs⟩ := t
  have hbelow : ∀ v ∈ (⟨node l cs, []⟩ : Visit).descend ++ [],
      v.node.named = true ∧ v.node.IsPart := by
    intro v hv
    rw [List.append_nil] at hv
    obtain ⟨c, hc, rfl⟩ := List.mem_map.1 hv
    obtain ⟨hchild, hnamed⟩ := List.mem_filter.1 hc
    exact ⟨hnamed, hparts c hchild⟩
  rw [walk, size, walkFrom, List.filter_cons, if_pos (beq_iff_eq.2 hkind), List.filter_eq_nil_iff.2]
  intro v hv heq
  exact kind_ne_of_mem_walkFrom hbelow v hv (beq_iff_eq.1 heq)

end Tree

namespace Dialect

theorem kind_tree (d : Dialect) (text : String) : (d.tree text).kind = programKind := by
  unfold tree
  simp only
  split <;> rfl

theorem isPart_of_mem_children_tree (d : Dialect) (text : String) :
    ∀ c ∈ (d.tree text).children, c.IsPart := by
  unfold tree
  simp only
  split
  · exact Tree.areParts_iff.1 (Part.areParts_trees _)
  · intro c hc
    obtain rfl := List.mem_singleton.1 hc
    exact Tree.isPart_fault _

end Dialect

/-- A text without a fault becomes a tree whose root, and nothing below it, covers the file. -/
class SourceReader.HasOneRoot [SourceReader] : Prop where
  kind_eq {d : Dialect} {text : String} :
    (tree d text).faulty = false → (tree d text).kind = programKind
  isPart {d : Dialect} {text : String} :
    (tree d text).faulty = false → ∀ c ∈ (tree d text).children, c.IsPart

instance SourceReader.hasOneRoot_grammar : HasOneRoot where
  kind_eq {d} {text} _ := d.kind_tree text
  isPart {d} {text} _ := d.isPart_of_mem_children_tree text

/-- **One root.** A walk over a file that can be read meets its root and no other. -/
theorem walk_of_readSource [SourceReader] [SourceReader.HasOneRoot] {suffix text : String}
    {d : Dialect} {t : Tree} (h : readSource suffix text = .ok (d, t)) :
    t.walk.filter (fun v => v.node.kind == programKind) = [⟨t, []⟩] := by
  unfold readSource at h
  cases hd : Dialect.ofExtension? suffix with
  | none =>
    rw [hd] at h
    cases h
  | some d' =>
    rw [hd] at h
    simp only [Tree.sound] at h
    split at h
    · cases h
    · rename_i hclean
      cases h
      rw [Bool.not_eq_true] at hclean
      exact Tree.walk_filter_program (SourceReader.HasOneRoot.kind_eq hclean)
        (SourceReader.HasOneRoot.isPart hclean)

end SliceLint
