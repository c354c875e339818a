import SliceLint.Proofs.Document.PlainForm
import SliceLint.Proofs.Sequence
import SliceLint.Config.Reading
import Mathlib.Data.List.Nodup
import Mathlib.Data.List.Perm.Basic

/-!
# Tables with distinct keys

**Looking up** (`lookup_eq_of_perm`). In a table whose keys are distinct a key is found with the one
value it stands with, in whatever order the entries come.

**Building up** (`foldl_putEntry_of_nodup`). Such a table is built entry by entry as it stands.

**Reading** (`nodup_of_named`). A document whose keys are names gives such a table, for the keys of a
mapping are different.
-/

namespace SliceLint

variable {α β : Type} [BEq α] [LawfulBEq α]

/-! ## Looking up -/

theorem lookup_eq_some_iff_of_nodup {entries : List (α × β)} (h : (entries.map Prod.fst).Nodup)
    {key : α} {value : β} : entries.lookup key = some value ↔ (key, value) ∈ entries := by
  constructor
  · intro hlookup
    obtain ⟨front, back, rfl, -⟩ := List.lookup_eq_some_iff.1 hlookup
    exact List.mem_append_right _ List.mem_cons_self
  · intro hmem
    obtain ⟨front, back, rfl⟩ := List.append_of_mem hmem
    refine List.lookup_eq_some_iff.2 ⟨front, back, rfl, fun entry hentry => bne_iff_ne.2 ?_⟩
    rintro rfl
    rw [List.map_append, List.nodup_append] at h
    exact h.2.2 _ (List.mem_map_of_mem hentry) _ List.mem_cons_self rfl

theorem lookup_eq_of_perm {entries order : List (α × β)} (h : (entries.map Prod.fst).Nodup)
    (hperm : order.Perm entries) (key : α) : order.lookup key = entries.lookup key := by
  have horder : (order.map Prod.fst).Nodup := (hperm.map Prod.fst).nodup_iff.2 h
  ext value
  rw [lookup_eq_some_iff_of_nodup h, lookup_eq_some_iff_of_nodup horder, hperm.mem_iff]

/-! ## Building up -/

theorem keys_putEntry (entries : List (α × β)) (key : α) (value : β) :
    (putEntry entries key value).map Prod.fst = entries.map Prod.fst ∨
      key ∉ entries.map Prod.fst ∧
        (putEntry entries key value).map Prod.fst = entries.map Prod.fst ++ [key] := by
  induction entries with
  | nil => exact Or.inr ⟨List.not_mem_nil, rfl⟩
  | cons entry rest ih =>
    obtain ⟨k, v⟩ := entry
    rw [putEntry]
    split
    · rename_i hk
      rw [beq_iff_eq] at hk
      exact Or.inl (by rw [List.map_cons, List.map_cons, hk])
    · rename_i hk
      rw [beq_iff_eq] at hk
      rw [List.map_cons, List.map_cons]
      rcases ih with hkeys | ⟨hnew, hkeys⟩
      · exact Or.inl (by rw [hkeys])
      · exact Or.inr ⟨by simpa [Ne.symm hk] using hnew, by rw [hkeys, List.cons_append]⟩

theorem nodup_keys_putEntry {entries : List (α × β)} (h : (entries.map Prod.fst).Nodup) (key : α)
    (value : β) : ((putEntry entries key value).map Prod.fst).Nodup := by
  rcases keys_putEntry entries key value with hkeys | ⟨hnew, hkeys⟩
  · rwa [hkeys]
  · rw [hkeys]
    rw [← List.concat_eq_append]
    exact h.concat hnew

theorem nodup_keys_foldl_putEntry {γ : Type} (key : γ → α) (value : γ → β) (puts : List γ)
    {kept : List (α × β)} (h : (kept.map Prod.fst).Nodup) :
    ((puts.foldl (fun kept x => putEntry kept (key x) (value x)) kept).map Prod.fst).Nodup := by
  induction puts generalizing kept with
  | nil => exact h
  | cons x puts ih => exact ih (nodup_keys_putEntry h (key x) (value x))

theorem putEntry_of_notMem {entries : List (α × β)} {key : α} (h : key ∉ entries.map Prod.fst)
    (value : β) : putEntry entries key value = entries ++ [(key, value)] := by
  induction entries with
  | nil => rfl
  | cons entry rest ih =>
    obtain ⟨k, v⟩ := entry
    rw [List.map_cons, List.mem_cons, not_or] at h
    rw [putEntry, if_neg (by simpa using Ne.symm h.1), ih h.2, List.cons_append]

theorem foldl_putEntry_of_nodup {puts kept : List (α × β)}
    (h : ((kept ++ puts).map Prod.fst).Nodup) :
    puts.foldl (fun kept (key, value) => putEntry kept key value) kept = kept ++ puts := by
  induction puts generalizing kept with
  | nil => rw [List.foldl_nil, List.append_nil]
  | cons put puts ih =>
    obtain ⟨key, value⟩ := put
    have hsplit : kept ++ (key, value) :: puts = (kept ++ [(key, value)]) ++ puts := by simp
    have hkey : key ∉ kept.map Prod.fst := by
      rw [List.map_append, List.nodup_append] at h
      exact fun hmem => h.2.2 key hmem key List.mem_cons_self rfl
    rw [hsplit] at h ⊢
    rw [List.foldl_cons]
    show puts.foldl _ (putEntry kept key value) = _
    rw [putEntry_of_notMem hkey, ih h]

omit [LawfulBEq α] in
theorem mem_of_mem_putEntry {entries : List (α × β)} {key : α} {value : β} {entry : α × β}
    (h : entry ∈ putEntry entries key value) : entry ∈ entries ∨ entry = (key, value) := by
  induction entries with
  | nil => exact .inr (List.mem_singleton.1 h)
  | cons first rest ih =>
    obtain ⟨k, v⟩ := first
    rw [putEntry] at h
    split at h
    · exact (List.mem_cons.1 h).symm.imp_left (List.mem_cons_of_mem _)
    · rcases List.mem_cons.1 h with rfl | h
      · exact .inl List.mem_cons_self
      · exact (ih h).imp_left (List.mem_cons_of_mem _)

omit [LawfulBEq α] in
/-- In a table that is built entry by entry nothing stands but what was put there. -/
theorem mem_of_mem_foldl_putEntry {γ : Type} {key : γ → α} {value : γ → β} {puts : List γ}
    {kept : List (α × β)} {entry : α × β}
    (h : entry ∈ puts.foldl (fun kept x => putEntry kept (key x) (value x)) kept) :
    entry ∈ kept ∨ ∃ x ∈ puts, entry = (key x, value x) := by
  induction puts generalizing kept with
  | nil => exact .inl h
  | cons x puts ih =>
    rcases ih h with h | ⟨y, hy, heq⟩
    · exact (mem_of_mem_putEntry h).imp_right fun heq => ⟨x, List.mem_cons_self, heq⟩
    · exact .inr ⟨y, List.mem_cons_of_mem _ hy, heq⟩

/-! ## Reading -/

/-- Entries with different keys, which are the texts of names, are read as rows with different
names. -/
theorem nodup_of_named {γ δ : Type} {name : γ → String} {entries : List (Value × Value)}
    {rows : List (γ × δ)}
    (hrows : List.Forall₂ (fun entry row => entry.1 = .text (name row.1)) entries rows)
    (hkeys : entries.Pairwise fun x y => x.1.same y.1 = false) : (rows.map Prod.fst).Nodup := by
  induction hrows with
  | nil => exact List.nodup_nil
  | @cons entry row entries rows hname hrest ih =>
    obtain ⟨hkey, hkeys⟩ := List.pairwise_cons.1 hkeys
    rw [List.map_cons, List.nodup_cons]
    refine ⟨fun hmem => ?_, ih hkeys⟩
    obtain ⟨row', hrow', heq⟩ := List.mem_map.1 hmem
    obtain ⟨entry', hentry', hname'⟩ := exists_of_mem_forall₂ hrest hrow'
    have hsame : entry.1.same entry'.1 = true := by
      rw [hname', heq, Value.same_text_iff, hname]
    rw [hkey entry' hentry'] at hsame
    cases hsame

end SliceLint
