import SliceLint.Proofs.Disk.Change
import SliceLint.Proofs.Disk.Entry
import SliceLint.Proofs.Table

/-!
# The files that a walk finds

A walk goes down from a folder, past hidden folders and past those that cannot be listed. It finds
the files that lie below the folder where every folder on the way is listed and none is hidden
(`Entry.mem_walk_iff`). The proof is an induction on the folder: the first name of a way leads to
the same member for both sides, and the member is a file or a folder.
-/

namespace SliceLint

namespace Entry

theorem exists_fileAt?_cons_iff {members : List (String × Entry)}
    (hnames : (members.map Prod.fst).Nodup) {name : String} {rest : List String} :
    (∃ bytes, (folder members).fileAt? (name :: rest) = some bytes) ↔
      ∃ e, (name, e) ∈ members ∧ ∃ bytes, e.fileAt? rest = some bytes := by
  simp only [fileAt?_folder_cons, Option.bind_eq_some_iff, lookup_eq_some_iff_of_nodup hnames]
  constructor
  · rintro ⟨bytes, e, he, hbytes⟩
    exact ⟨e, he, bytes, hbytes⟩
  · rintro ⟨e, he, bytes, hbytes⟩
    exact ⟨bytes, e, he, hbytes⟩

theorem WellNamed.isName_of_fileAt? {e : Entry} (h : e.WellNamed) {names : List String}
    {bytes : List UInt8} (hfile : e.fileAt? names = some bytes) :
    ∀ name ∈ names, Path.IsName name := by
  induction names generalizing e with
  | nil => exact fun _ hmem => absurd hmem List.not_mem_nil
  | cons name rest ih =>
    cases h with
    | file => simp [fileAt?_file] at hfile
    | @folder members hmembers hbelow =>
      rw [fileAt?_folder_cons] at hfile
      obtain ⟨next, hnext, hrest⟩ := Option.bind_eq_some_iff.1 hfile
      obtain ⟨front, back, rfl, -⟩ := List.lookup_eq_some_iff.1 hnext
      have hmem : (name, next) ∈ front ++ (name, next) :: back :=
        List.mem_append_right _ List.mem_cons_self
      exact List.forall_mem_cons.2 ⟨hmembers name next hmem, ih (hbelow name next hmem) hrest⟩

/-- The folders on the way from a folder with this path can be listed. -/
def IsListed (lists : String → Bool) (path : String) (folders : List String) : Prop :=
  ∀ way, way <+: folders → lists (way.foldl Path.under path) = true

section Listed

variable {lists : String → Bool} {path : String}

theorem isListed_nil_iff : IsListed lists path [] ↔ lists path = true := by
  simp [IsListed]

theorem isListed_cons_iff {name : String} {folders : List String} :
    IsListed lists path (name :: folders) ↔
      lists path = true ∧ IsListed lists (Path.under path name) folders := by
  constructor
  · intro h
    exact ⟨h [] List.nil_prefix, fun way hway =>
      h (name :: way) (List.cons_prefix_cons.2 ⟨rfl, hway⟩)⟩
  · rintro ⟨hfirst, hrest⟩ way hprefix
    cases way with
    | nil => exact hfirst
    | cons name' way =>
      obtain ⟨rfl, hway⟩ := List.cons_prefix_cons.1 hprefix
      exact hrest way hway

end Listed

/-- **Walks.** A walk from a folder finds the files below it where each folder on the way can be
listed and none is hidden. -/
theorem mem_walk_iff {lists : String → Bool} {path : String} {e : Entry}
    (hdistinct : e.HasDistinctNames) (hfolder : e.isFolder = true) {names : List String} :
    names ∈ e.walk lists path ↔ (∃ bytes, e.fileAt? names = some bytes) ∧
      (∀ name ∈ names.dropLast, isHidden name = false) ∧ IsListed lists path names.dropLast := by
  induction hdistinct generalizing path names with
  | file bytes => cases hfolder
  | @folder members hnames _ ih =>
    cases names with
    | nil => exact iff_of_false (fun hmem => ne_nil_of_mem_walk hmem rfl) (by simp [fileAt?, at?])
    | cons name rest =>
      rw [exists_fileAt?_cons_iff hnames, mem_walk_folder_iff]
      constructor
      · rintro ⟨hlists, _, _, e, ⟨rfl, rfl⟩, hmem, ⟨hfile, rfl⟩ | ⟨hfolder, hhidden, hrest⟩⟩
        · cases e with
          | file bytes => exact ⟨⟨_, hmem, bytes, rfl⟩, by simp, isListed_nil_iff.2 hlists⟩
          | folder members => cases hfile
        · obtain ⟨hbytes, hshown, hlisted⟩ := (ih name e hmem hfolder).1 hrest
          refine ⟨⟨e, hmem, hbytes⟩, ?_⟩
          rw [List.dropLast_cons_of_ne_nil (ne_nil_of_mem_walk hrest)]
          exact ⟨List.forall_mem_cons.2 ⟨hhidden, hshown⟩, isListed_cons_iff.2 ⟨hlists, hlisted⟩⟩
      · rintro ⟨⟨e, hmem, hbytes⟩, hshown, hlisted⟩
        refine ⟨hlisted [] List.nil_prefix, name, rest, e, rfl, hmem, ?_⟩
        cases e with
        | file bytes =>
          refine Or.inl ⟨rfl, ?_⟩
          rw [fileAt?_file] at hbytes
          by_contra hne
          simp [hne] at hbytes
        | folder members =>
          have hne : rest ≠ [] := by
            rintro rfl
            simp [fileAt?, at?] at hbytes
          rw [List.dropLast_cons_of_ne_nil hne] at hshown hlisted
          obtain ⟨hhidden, hshown⟩ := List.forall_mem_cons.1 hshown
          obtain ⟨-, hlisted⟩ := isListed_cons_iff.1 hlisted
          exact Or.inr ⟨rfl, hhidden, (ih name _ hmem rfl).2 ⟨hbytes, hshown, hlisted⟩⟩

end Entry

end SliceLint
