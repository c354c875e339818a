import SliceLint.Project.Selection
import SliceLint.Proofs.Path.Normal
import Mathlib.Data.List.Nodup

/-!
# Entries of a disk

**Faults** (`Disk.fault_of_isFolder`). Whether a path leads to a folder is left open by a name or a
path that is too long, and by nothing else.

**Well-named entries** (`Entry.WellNamed`). Everything that lies in a folder has a name that leads
down: it is not empty, neither `.` nor `..`, and has no slash in it. Whatever a path leads to on a
disk with such names has such names (`Disk.wellNamed_entry`), and so has every way that leads from a
folder to a file below it (`Entry.WellNamed.isName_of_mem_walk`).

**Distinct names** (`Entry.HasDistinctNames`). No two members of a folder have one name. Then one
way leads to each file below it (`Entry.HasDistinctNames.nodup_walk`).
-/

namespace SliceLint

namespace Entry

/-- All names below an entry lead down. -/
inductive WellNamed : Entry → Prop
  | file (bytes : List UInt8) : WellNamed (.file bytes)
  | folder {members : List (String × Entry)} :
      (∀ name e, (name, e) ∈ members → Path.IsName name) →
      (∀ name e, (name, e) ∈ members → WellNamed e) → WellNamed (.folder members)

/-- In no folder below an entry there is a name twice. -/
inductive HasDistinctNames : Entry → Prop
  | file (bytes : List UInt8) : HasDistinctNames (.file bytes)
  | folder {members : List (String × Entry)} : (members.map Prod.fst).Nodup →
      (∀ name e, (name, e) ∈ members → HasDistinctNames e) → HasDistinctNames (.folder members)

/-- The members of a folder have what the folder has. -/
def Hereditary (p : Entry → Prop) : Prop :=
  ∀ members, p (.folder members) → ∀ name e, (name, e) ∈ members → p e

theorem hereditary_wellNamed : Hereditary WellNamed := by
  rintro members (_ | ⟨-, hmembers⟩)
  exact hmembers

theorem hereditary_hasDistinctNames : Hereditary HasDistinctNames := by
  rintro members (_ | ⟨-, hmembers⟩)
  exact hmembers

end Entry

namespace Disk

/-! ## Faults -/

theorem fault_of_descend {segs : List String} {above : List Entry} {e : Entry} {f : DiskFault}
    (h : descend above e segs = .error f) : f ∈ [.notFound, .notFolder, .nameTooLong] := by
  have hmember : ∀ name e, member name e = .error f →
      f ∈ [.notFound, .notFolder, .nameTooLong] := by
    intro name e hname
    unfold member at hname
    split at hname
    · cases hname
      decide
    · split at hname
      · cases hname
        decide
      · split at hname
        · cases hname
        · cases hname
          decide
  induction segs generalizing above e with
  | nil => cases h
  | cons seg segs ih =>
    rw [descend.eq_def] at h
    simp only at h
    split at h
    · split at h
      · exact ih h
      · cases h
        decide
    split at h
    · split at h
      · split at h <;> exact ih h
      · cases h
        decide
    · split at h
      · exact ih h
      · rename_i hname
        cases h
        exact hmember seg e hname

theorem fault_of_isFolder {d : Disk} {path : String} {fault : Fault}
    (h : d.isFolder path = .error fault) :
    d.entry path = .error .nameTooLong ∧ fault = DiskFault.nameTooLong.onPath path := by
  have hentry : ∀ f, d.entry path = .error f → f ∈ [.notFound, .notFolder, .nameTooLong] := by
    intro f hf
    unfold entry at hf
    split at hf
    · cases hf
      decide
    split at hf
    · cases hf
      decide
    · exact fault_of_descend hf
  unfold isFolder holds at h
  split at h
  · cases h
  · cases h
  · cases h
  · rename_i f hfound hfolder hf
    cases h
    have hmem := hentry f hf
    simp only [List.mem_cons, List.not_mem_nil, or_false] at hmem
    rcases hmem with rfl | rfl | rfl
    · exact absurd rfl hfound
    · exact absurd rfl hfolder
    · exact ⟨hf, rfl⟩

/-- Nothing is said of a name at the top of a disk that is too long. -/
theorem isFolder_of_overlong {d : Disk} {members : List (String × Entry)} {name : String}
    (hroot : d.root = .folder members) (hname : Path.IsName name)
    (hnull : Path.hasNull name = false) (hlong : nameLimit < name.utf8ByteSize)
    (hshort : ("/" ++ name).utf8ByteSize < pathLimit) :
    d.isFolder (Path.below "/" name) = .error (DiskFault.nameTooLong.onPath ("/" ++ name)) := by
  have hbelow : Path.below "/" name = "/" ++ name := by
    have hbase : Path.rootOf "/" = "/" ∧ Path.spelledSegments "/" = [] := by decide +kernel
    rw [Path.below, hname.isAbsolute_eq, hbase.1, hbase.2, hname.spelledSegments_eq]
    simp [Path.spell, Text.join]
  have habsolute : d.absolute ("/" ++ name) = "/" ++ name := by
    have hslash : Path.isAbsolute ("/" ++ name) = true := by
      rw [Path.isAbsolute, String.startsWith_string_iff]
      exact ⟨name.toList, by simp⟩
    rw [absolute, Path.under, if_pos hslash]
  have hpieces : Path.pieces ("/" ++ name) = ["", name] := by
    have hsplit := Path.pieces_append_slash "" name
    rw [hname.pieces_eq] at hsplit
    exact hsplit
  have hthere : ¬ ("/" ++ name == "" || Path.hasNull ("/" ++ name)) = true := by
    rw [Path.hasNull] at hnull ⊢
    simpa using hnull
  have hentry : d.entry ("/" ++ name) = .error .nameTooLong := by
    rw [entry, habsolute, hpieces, hroot, if_neg hthere, if_neg (by omega)]
    simp [descend, Entry.isFolder, hname.ne_empty, hname.ne_dot, hname.ne_dots, member, hlong]
  rw [hbelow, isFolder, holds, hentry]

/-! ## What a path leads to -/

section Hereditary

variable {p : Entry → Prop}

theorem member_hereditary (hp : Entry.Hereditary p) {name : String} {e next : Entry} (he : p e)
    (h : member name e = .ok next) : p next := by
  cases e with
  | file bytes => cases h
  | folder members =>
    simp only [member] at h
    split at h
    · cases h
    · cases hlookup : members.lookup name with
      | none =>
        rw [hlookup] at h
        cases h
      | some found =>
        rw [hlookup] at h
        cases h
        obtain ⟨front, back, rfl, -⟩ := List.lookup_eq_some_iff.1 hlookup
        exact hp _ he name next (List.mem_append_right _ List.mem_cons_self)

theorem descend_hereditary (hp : Entry.Hereditary p) {segs : List String} {above : List Entry}
    {e found : Entry} (habove : ∀ top ∈ above, p top) (he : p e)
    (h : descend above e segs = .ok found) : p found := by
  induction segs generalizing above e with
  | nil =>
    cases h
    exact he
  | cons seg segs ih =>
    rw [descend.eq_def] at h
    simp only at h
    split at h
    · split at h
      · exact ih habove he h
      · cases h
    split at h
    · split at h
      · cases above with
        | nil => exact ih habove he h
        | cons top above =>
          obtain ⟨htop, habove⟩ := List.forall_mem_cons.1 habove
          exact ih habove htop h
      · cases h
    · cases hmember : member seg e with
      | error f =>
        rw [hmember] at h
        cases h
      | ok next =>
        rw [hmember] at h
        exact ih (List.forall_mem_cons.2 ⟨he, habove⟩) (member_hereditary hp he hmember) h

/-- What the members of folders take over from these holds of all that a path leads to, if it holds
of the root. -/
theorem entry_hereditary (hp : Entry.Hereditary p) {d : Disk} (hd : p d.root) {path : String}
    {e : Entry} (h : d.entry path = .ok e) : p e := by
  unfold entry at h
  split at h
  · cases h
  split at h
  · cases h
  · exact descend_hereditary hp (fun _ hmem => absurd hmem List.not_mem_nil) hd h

end Hereditary

theorem wellNamed_entry {d : Disk} (hd : d.root.WellNamed) {path : String} {e : Entry}
    (h : d.entry path = .ok e) : e.WellNamed :=
  entry_hereditary Entry.hereditary_wellNamed hd h

end Disk

/-! ## The files below a folder -/

namespace Entry

variable {lists : String → Bool} {path : String}

theorem mem_walkMembers_iff {members : List (String × Entry)} {name : String}
    {paths : List (List String)} :
    (name, paths) ∈ walkMembers lists path members ↔
      ∃ e, (name, e) ∈ members ∧ e.isFolder = true ∧ isHidden name = false ∧
        paths = e.walk lists (Path.under path name) := by
  induction members with
  | nil => simp [walkMembers]
  | cons m members ih =>
    obtain ⟨name', e⟩ := m
    rw [walkMembers]
    simp only [List.mem_cons, Prod.mk.injEq, or_and_right, exists_or]
    split
    · rename_i hseen
      simp only [Bool.and_eq_true, Bool.not_eq_true'] at hseen
      rw [List.mem_cons, ih]
      refine or_congr_left ⟨?_, ?_⟩
      · intro heq
        cases heq
        exact ⟨e, ⟨rfl, rfl⟩, hseen.1, hseen.2, rfl⟩
      · rintro ⟨_, ⟨rfl, rfl⟩, -, -, rfl⟩
        rfl
    · rename_i hseen
      rw [ih]
      refine (or_iff_right ?_).symm
      rintro ⟨_, ⟨rfl, rfl⟩, hfolder, hhidden, -⟩
      exact hseen (by rw [hfolder, hhidden]; rfl)

/-- The first name on the way to a file is that of a member: the file itself, or a folder that is not
hidden and that the way leads on from. -/
theorem mem_walk_folder_iff {members : List (String × Entry)} {names : List String} :
    names ∈ (folder members).walk lists path ↔ lists path = true ∧
      ∃ name rest e, names = name :: rest ∧ (name, e) ∈ members ∧
        (e.isFolder = false ∧ rest = [] ∨
          e.isFolder = true ∧ isHidden name = false ∧
            rest ∈ e.walk lists (Path.under path name)) := by
  rw [walk]
  by_cases hlists : lists path = true
  case neg => simp [hlists]
  rw [if_pos hlists, List.mem_append, List.mem_map, List.mem_flatMap]
  refine Iff.trans ?_ (and_iff_right hlists).symm
  constructor
  · rintro (⟨⟨name, e⟩, hmem, rfl⟩ | ⟨⟨name, paths⟩, hmem, hpaths⟩)
    · obtain ⟨hmem, hfile⟩ := List.mem_filter.1 hmem
      exact ⟨name, [], e, rfl, List.mem_mergeSort.1 hmem, Or.inl ⟨by simpa using hfile, rfl⟩⟩
    · obtain ⟨rest, hrest, rfl⟩ := List.mem_map.1 hpaths
      obtain ⟨e, he, hfolder, hhidden, rfl⟩ := mem_walkMembers_iff.1 (List.mem_mergeSort.1 hmem)
      exact ⟨name, rest, e, rfl, he, Or.inr ⟨hfolder, hhidden, hrest⟩⟩
  · rintro ⟨name, rest, e, rfl, hmem, ⟨hfile, rfl⟩ | ⟨hfolder, hhidden, hrest⟩⟩
    · refine Or.inl ⟨(name, e), List.mem_filter.2 ⟨List.mem_mergeSort.2 hmem, ?_⟩, rfl⟩
      simpa using hfile
    · refine Or.inr ⟨(name, e.walk lists (Path.under path name)), List.mem_mergeSort.2 ?_,
        List.mem_map_of_mem hrest⟩
      exact mem_walkMembers_iff.2 ⟨e, hmem, hfolder, hhidden, rfl⟩

theorem ne_nil_of_mem_walk {e : Entry} {names : List String} (h : names ∈ e.walk lists path) :
    names ≠ [] := by
  cases e with
  | file bytes =>
    rw [walk] at h
    exact absurd h List.not_mem_nil
  | folder members =>
    obtain ⟨-, name, rest, _, rfl, _⟩ := mem_walk_folder_iff.1 h
    exact List.cons_ne_nil name rest

theorem WellNamed.isName_of_mem_walk {e : Entry} (h : e.WellNamed) {names : List String}
    (hnames : names ∈ e.walk lists path) : ∀ name ∈ names, Path.IsName name := by
  induction h generalizing path names with
  | file bytes =>
    rw [walk] at hnames
    exact absurd hnames List.not_mem_nil
  | folder hmembers _ ih =>
    obtain ⟨-, name, rest, e, rfl, hmem, hrest⟩ := mem_walk_folder_iff.1 hnames
    refine List.forall_mem_cons.2 ⟨hmembers name e hmem, ?_⟩
    rcases hrest with ⟨-, rfl⟩ | ⟨-, -, hrest⟩
    · exact fun _ hname => absurd hname List.not_mem_nil
    · exact ih name e hmem hrest

theorem keys_walkMembers (lists : String → Bool) (path : String) (members : List (String × Entry)) :
    ((walkMembers lists path members).map Prod.fst).Sublist (members.map Prod.fst) := by
  induction members with
  | nil => exact .slnil
  | cons m members ih =>
    obtain ⟨name, e⟩ := m
    rw [walkMembers]
    split
    · exact ih.cons_cons name
    · exact ih.cons name

theorem nodup_keys_sortedByName {α : Type} {members : List (String × α)}
    (h : (members.map Prod.fst).Nodup) : ((sortedByName members).map Prod.fst).Nodup :=
  ((List.mergeSort_perm members _).map Prod.fst).nodup_iff.2 h

theorem HasDistinctNames.nodup_walk {e : Entry} (h : e.HasDistinctNames) :
    (e.walk lists path).Nodup := by
  induction h generalizing path with
  | file bytes =>
    rw [walk]
    exact List.nodup_nil
  | @folder members hnames _ ih =>
    rw [walk]
    split
    case isFalse => exact List.nodup_nil
    refine List.Nodup.append ?_ (List.nodup_flatMap.2 ⟨?_, ?_⟩) ?_
    · -- the files of the folder itself
      have hfiles := (List.filter_sublist (p := fun m : String × Entry => !m.2.isFolder)).map
        Prod.fst |>.nodup (nodup_keys_sortedByName hnames)
      have hmap := hfiles.map (f := fun name => [name]) fun _ _ heq => (List.cons.inj heq).1
      rwa [List.map_map] at hmap
    · -- the files below one of its folders
      rintro ⟨name, paths⟩ hmem
      obtain ⟨e, he, -, -, rfl⟩ := mem_walkMembers_iff.1 (List.mem_mergeSort.1 hmem)
      exact (ih name e he).map fun _ _ heq => (List.cons.inj heq).2
    · have hfolders := nodup_keys_sortedByName ((keys_walkMembers lists path members).nodup hnames)
      refine (List.pairwise_map.1 hfolders).imp fun {m m'} hne names hnames hnames' => ?_
      obtain ⟨rest, -, rfl⟩ := List.mem_map.1 hnames
      obtain ⟨rest', -, heq⟩ := List.mem_map.1 hnames'
      exact hne (List.cons.inj heq).1.symm
    · intro names hfile hbelow
      obtain ⟨m, -, rfl⟩ := List.mem_map.1 hfile
      obtain ⟨⟨name, paths⟩, hmem, hpaths⟩ := List.mem_flatMap.1 hbelow
      obtain ⟨rest, hrest, heq⟩ := List.mem_map.1 hpaths
      obtain ⟨e, -, -, -, rfl⟩ := mem_walkMembers_iff.1 (List.mem_mergeSort.1 hmem)
      exact ne_nil_of_mem_walk hrest (List.cons.inj heq).2

end Entry

end SliceLint
