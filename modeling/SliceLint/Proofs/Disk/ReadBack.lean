import SliceLint.Proofs.Disk.Change

/-!
# Reading what was written

**Shapes** (`Disk.entry_keeping`). Where everything that lies in a tree lies in another tree too,
files as files and folders as folders, a path that leads somewhere in the first leads somewhere in
the second. The proof walks both trees at once; after each step the entries reached lie in the same
place.

**Reading back** (`Disk.readBytes_writeBelow`). The bytes that were written are read from the same
path. The path has to be spelled: with a slash at its end it would lead to no file.

**Writing** (`Disk.exists_writeBelow`). A file can be written into a folder that is there.
-/

namespace SliceLint

namespace Entry

/-! ## Shapes -/

/-- Files of a tree are files of another tree, and folders are folders. -/
def Keeps (e changed : Entry) : Prop :=
  ∀ place x, e.at? place = some x → ∃ x', changed.at? place = some x' ∧ x'.isFolder = x.isFolder

theorem at?_folder_cons (members : List (String × Entry)) (name : String) (names : List String) :
    (folder members).at? (name :: names) = (members.lookup name).bind (at? names) := rfl

/-- A file that comes to lie where no folder is keeps all that lies elsewhere. -/
theorem keeps_put {names : List String} {e : Entry}
    (h : ∀ members, e.at? names ≠ some (folder members)) (bytes : List UInt8) :
    e.Keeps (put (file bytes) names e) := by
  induction names generalizing e with
  | nil =>
    cases e with
    | file old =>
      rintro (_ | ⟨name, place⟩) x hx <;> cases hx
      exact ⟨file bytes, rfl, rfl⟩
    | folder members => exact absurd rfl (h members)
  | cons name names ih =>
    cases e with
    | file old => exact fun place x hx => ⟨x, hx, rfl⟩
    | folder members =>
      rintro (_ | ⟨n, place⟩) x hx
      · cases hx
        exact ⟨_, rfl, rfl⟩
      rw [put, at?_folder_cons, lookup_setMember]
      -- Only under the name itself does anything change, and there by what is put further down.
      by_cases hn : n = name
      · subst hn
        obtain ⟨next, hnext, hfound⟩ := Option.bind_eq_some_iff.1 hx
        have hlookup : members.lookup n = some next := hnext
        rw [if_pos rfl, Option.bind_some, hlookup, Option.getD_some]
        refine ih (fun others hothers => h others ?_) place x hfound
        rw [at?_folder_cons, hlookup, Option.bind_some, hothers]
      · rw [if_neg hn]
        exact ⟨x, hx, rfl⟩

end Entry

namespace Disk

section Walk

variable {root root' e e' found : Entry} {names segs : List String} {above above' : List Entry}

theorem LiesAt.alike (hkeeps : root.Keeps root') (h : LiesAt root names above e)
    (h' : LiesAt root' names above' e') : e'.isFolder = e.isFolder := by
  obtain ⟨x, hx, hfolder⟩ := hkeeps _ _ h.at?_eq
  cases h'.at?_eq.symm.trans hx
  exact hfolder

theorem Leads.keeping {seg : String} {reached : List Entry × Entry}
    (hkeeps : root.Keeps root') (h : LiesAt root names above e) (h' : LiesAt root' names above' e')
    (hleads : Leads above e seg reached) : ∃ reached', Leads above' e' seg reached' := by
  cases hleads with
  | stay hskip => exact ⟨_, .stay hskip⟩
  | up hdots => exact ⟨_, .up hdots⟩
  | @down next hskip hdots hlimit hchild =>
    have hnext : LiesAt root (seg :: names) (e :: above) next := .child h hdots hchild
    obtain ⟨next', hat, -⟩ := hkeeps _ _ hnext.at?_eq
    have hchild' : e'.child? seg = some next' := by
      simpa [Entry.at?_append, h'.at?_eq, Entry.at?] using hat
    exact ⟨_, .down hskip hdots hlimit hchild'⟩

/-- What segments lead to in a tree has its like in a tree that keeps the first. -/
theorem descend_keeping (hkeeps : root.Keeps root') (h : LiesAt root names above e)
    (h' : LiesAt root' names above' e') (hfound : descend above e segs = .ok found) :
    ∃ found', descend above' e' segs = .ok found' ∧ found'.isFolder = found.isFolder := by
  induction segs generalizing names above above' e e' with
  | nil =>
    cases hfound
    exact ⟨e', rfl, h.alike hkeeps h'⟩
  | cons seg segs ih =>
    rw [descend_cons] at hfound
    obtain ⟨reached, hstep, hfound⟩ := bind_eq_ok hfound
    obtain ⟨hfolder, hleads⟩ := step_eq_ok_iff.1 hstep
    obtain ⟨reached', hleads'⟩ := hleads.keeping hkeeps h h'
    rw [descend_cons, step_eq_ok_iff.2 ⟨(h.alike hkeeps h').trans hfolder, hleads'⟩]
    exact ih (h.leads hleads) (h'.leads hleads') hfound

end Walk

/-- **Shapes.** What a path leads to on a disk has its like on a disk that keeps all that lies
there. -/
theorem entry_keeping {d changed : Disk} {path : String} {e : Entry}
    (hkeeps : d.root.Keeps changed.root) (hhere : changed.here = d.here)
    (h : d.entry path = .ok e) :
    ∃ e', changed.entry path = .ok e' ∧ e'.isFolder = e.isFolder := by
  obtain ⟨hempty, hnull, hlength⟩ := usable_of_entry h
  rw [entry_eq_descend hempty hnull hlength, absolute, hhere]
  exact descend_keeping hkeeps .root .root (descend_of_entry h)

/-! ## One name more -/

section Below

variable {above : List Entry} {e found : Entry} {seg : String} {segs : List String}

theorem isFolder_of_descend (h : descend above e segs = .ok found)
    (hfound : found.isFolder = true) : e.isFolder = true := by
  cases segs with
  | nil =>
    cases h
    exact hfound
  | cons seg segs =>
    rw [descend_cons] at h
    obtain ⟨reached, hstep, -⟩ := bind_eq_ok h
    exact (step_eq_ok_iff.1 hstep).1

theorem kept_concat (h : Path.IsKept seg) (segs : List String) :
    kept (segs ++ [seg]) = kept segs ++ [seg] := by
  have hseg := kept_cons (not_or.2 ⟨h.ne_empty, h.ne_dot⟩) []
  rw [kept, List.filter_append]
  exact congrArg (kept segs ++ ·) hseg

/-- Segments that are skipped can be put in on the way to a folder. -/
theorem descend_of_kept (h : descend above e (kept segs) = .ok found)
    (hfound : found.isFolder = true) : descend above e segs = .ok found := by
  induction segs generalizing above e with
  | nil => exact h
  | cons seg segs ih =>
    by_cases hskip : seg = "" ∨ seg = "."
    · rw [kept_skipped hskip] at h
      rw [descend_cons, step_eq_ok_iff.2 ⟨isFolder_of_descend h hfound, .stay hskip⟩]
      exact ih h
    · rw [kept_cons hskip, descend_cons] at h
      obtain ⟨reached, hstep, h⟩ := bind_eq_ok h
      rw [descend_cons, hstep]
      exact ih h

/-- Where the folder of a path is there, the last segment of the path leads on from it. -/
theorem entry_below {d : Disk} {path : String} {members : List (String × Entry)}
    (hspelled : Path.IsSpelled path) (hnull : Path.hasNull path = false)
    (hlength : path.utf8ByteSize < pathLimit) (hconcat : Path.spelledSegments path = segs ++ [seg])
    (h : d.entry (Path.parent path) = .ok (.folder members)) :
    ∃ others, d.entry path = descend others (.folder members) [seg] := by
  have hroot := Path.isRoot_rootOf path
  have hmore : ∀ s ∈ segs ++ [seg], Path.IsKept s := fun s hs =>
    Path.isKept_of_mem_spelledSegments (hconcat ▸ hs)
  obtain ⟨hsegs, hseg⟩ := List.forall_mem_append.1 hmore
  have hfolder := descend_spelled (descend_of_entry h) (by simp)
  rw [Path.parent, hconcat, List.dropLast_concat, Path.rootOf_spell hroot hsegs,
    Path.spelledSegments_spell_root hroot hsegs] at hfolder
  have hwhole : Path.spell (Path.rootOf path) (segs ++ [seg]) = path := by
    rw [← hconcat]
    exact hspelled
  -- The last segment is the last piece too, so no skipped segment stands behind it.
  have hsuffix : segs ++ [seg] <:+ Path.pieces (d.absolute path) := by
    have hspell := Path.suffix_pieces_spell hroot (fun s hs => (hmore s hs).no_slash) (by simp)
    rw [hwhole] at hspell
    exact hspell.trans (Path.pieces_suffix_under d.here path)
  obtain ⟨front, hfront⟩ := hsuffix
  rw [← List.append_assoc] at hfront
  have hkept : kept (front ++ segs) = d.front (Path.rootOf path) ++ segs := by
    have hall := spelledSegments_absolute d path
    rw [hconcat, ← kept_pieces, ← hfront, ← List.append_assoc,
      kept_concat (hseg seg (List.mem_singleton_self seg))] at hall
    exact List.append_cancel_right hall
  rw [← hkept] at hfolder
  obtain ⟨others, hothers⟩ := descend_append (descend_of_kept hfolder rfl)
  refine ⟨others, ?_⟩
  rw [entry_eq_descend hspelled.ne_empty hnull hlength, ← hfront, hothers]

end Below

/-! ## Reading back -/

section ReadBack

variable {d changed : Disk} {path : String} {bytes : List UInt8}

theorem readBytes_eq_ok_iff : d.readBytes path = .ok bytes ↔ d.entry path = .ok (.file bytes) := by
  unfold readBytes
  split <;> simp_all

theorem Gains.at?_place (h : Gains d changed (d.place path) bytes) :
    changed.root.at? (changed.place path) = some (.file bytes) := by
  rw [h.place_eq, ← Entry.fileAt?_eq_some_iff, h.files, if_pos rfl]

theorem readBytes_of_old {old : List UInt8} (hpath : d.entry path = .ok (.file old))
    (hkeeps : d.root.Keeps changed.root) (hgains : Gains d changed (d.place path) bytes) :
    changed.readBytes path = .ok bytes := by
  obtain ⟨x, hx, -⟩ := entry_keeping hkeeps hgains.here hpath
  have hfile := at?_of_entry hx
  rw [hgains.at?_place] at hfile
  cases hfile
  exact readBytes_eq_ok_iff.2 hx

theorem readBytes_of_new {members : List (String × Entry)} {segs : List String} {name : String}
    (hspelled : Path.IsSpelled path) (hnull : Path.hasNull path = false)
    (hlength : path.utf8ByteSize < pathLimit) (hconcat : Path.spelledSegments path = segs ++ [name])
    (hname : Path.IsName name) (hlimit : name.utf8ByteSize ≤ nameLimit)
    (hplace : d.place path = d.place (Path.parent path) ++ [name])
    (hparent : d.entry (Path.parent path) = .ok (.folder members))
    (hkeeps : d.root.Keeps changed.root) (hgains : Gains d changed (d.place path) bytes) :
    changed.readBytes path = .ok bytes := by
  obtain ⟨x, hx, hfolder⟩ := entry_keeping hkeeps hgains.here hparent
  cases x with
  | file _ => cases hfolder
  | folder others =>
    -- The folder has other members now: what it has under the name is read off the place.
    have hchild : (Entry.folder others).child? name = some (.file bytes) := by
      have hfile := hgains.at?_place
      rw [hgains.place_eq, hplace, ← hgains.place_eq, Entry.at?_append, at?_of_entry hx,
        Option.bind_some] at hfile
      obtain ⟨next, hnext, hfile⟩ := Option.bind_eq_some_iff.1 hfile
      cases hfile
      exact hnext
    obtain ⟨above, hentry⟩ := entry_below hspelled hnull hlength hconcat hx
    rw [descend_name hname, member_eq_ok_iff.2 ⟨hlimit, hchild⟩] at hentry
    exact readBytes_eq_ok_iff.2 hentry

theorem readBytes_write (hspelled : Path.IsSpelled path) (h : d.write path bytes = .ok changed) :
    changed.readBytes path = .ok bytes := by
  have hgains := gains_write hspelled.ne_empty h
  unfold write at h
  split at h
  · cases h
  rename_i hnull
  split at h
  · rename_i old hpath
    cases h
    refine readBytes_of_old hpath (Entry.keeps_put (fun members hmembers => ?_) bytes) hgains
    rw [at?_of_entry hpath] at hmembers
    cases hmembers
  · cases h
  · rename_i hpath
    obtain ⟨rfl, members, hparent⟩ := exists_of_create h
    rw [Bool.not_eq_true] at hnull
    have hlength := length_lt_of_entry hspelled.ne_empty hnull (by rw [hpath]; simp)
    obtain ⟨segs, name, hconcat, hname, hmember, hplace⟩ :=
      exists_of_notFound hspelled.ne_empty hnull hpath hparent
    obtain ⟨hlimit, hnew⟩ := lookup_of_member_notFound hmember
    refine readBytes_of_new hspelled hnull hlength hconcat hname hlimit hplace hparent
      (Entry.keeps_put (fun others hothers => ?_) bytes) hgains
    rw [hplace, Entry.at?_append, at?_of_entry hparent, Option.bind_some, Entry.at?_folder_cons,
      hnew] at hothers
    cases hothers
  · cases h

/-- **Reading back.** The bytes that were written are read from the same path. -/
theorem readBytes_writeBelow (hspelled : Path.IsSpelled path)
    (h : d.writeBelow path bytes = (.ok (), changed)) : changed.readBytes path = .ok bytes := by
  unfold writeBelow at h
  split at h
  · split at h
    · rename_i written hwritten
      cases h
      exact readBytes_write hspelled hwritten
    · cases h
  · rename_i hfailed
    exact absurd h (hfailed changed)

end ReadBack

/-! ## Writing -/

section Writing

variable {d : Disk} {path : String} {members : List (String × Entry)}

theorem ensureFolder_of_entry (h : d.entry path = .ok (.folder members)) :
    d.makeFolder path = .error .taken ∧ d.ensureFolder path = (.ok (), d) := by
  have hmade : d.makeFolder path = .error .taken := by
    rw [makeFolder, (usable_of_entry h).2.1, if_neg Bool.false_ne_true, h]
  refine ⟨hmade, ?_⟩
  simp only [ensureFolder, hmade, h]

theorem ensureFolders_of_entry (hspelled : Path.IsSpelled path)
    (h : d.entry path = .ok (.folder members)) : d.ensureFolders path = (.ok (), d) := by
  have hpath :
      Path.spell (Path.rootOf path) (Path.spelledSegments path).reverse.reverse = path := by
    rw [List.reverse_reverse]
    exact hspelled
  rw [ensureFolders]
  cases hsegs : (Path.spelledSegments path).reverse with
  | nil =>
    rw [hsegs, List.reverse_nil] at hpath
    rw [ensureFoldersFrom, hpath]
    exact (ensureFolder_of_entry h).2
  | cons seg above =>
    rw [hsegs] at hpath
    simp only [ensureFoldersFrom, hpath, (ensureFolder_of_entry h).1, (ensureFolder_of_entry h).2]

theorem exists_folder_of_isFolder (h : d.isFolder path = .ok true) :
    ∃ members, d.entry path = .ok (.folder members) := by
  unfold isFolder holds at h
  split at h
  · rename_i e hentry
    cases e with
    | file bytes => cases h
    | folder members => exact ⟨members, hentry⟩
  all_goals cases h

theorem create_of_entry (h : d.entry (Path.parent path) = .ok (.folder members)) (new : Entry) :
    d.create path new = .ok (d.put path new) := by
  unfold create
  rewrite [h]
  dsimp only

theorem entry_ne_notFolder (hspelled : Path.IsSpelled path) (hnull : Path.hasNull path = false)
    (hparent : d.entry (Path.parent path) = .ok (.folder members)) :
    d.entry path ≠ .error .notFolder := by
  intro hpath
  have hlength := length_lt_of_entry hspelled.ne_empty hnull (by rw [hpath]; simp)
  rcases List.eq_nil_or_concat (Path.spelledSegments path) with hnil | ⟨segs, seg, hconcat⟩
  · have hsame : Path.parent path = path := by
      rw [Path.parent, hnil, List.dropLast_nil, ← hnil]
      exact hspelled
    rw [hsame, hpath] at hparent
    cases hparent
  rw [List.concat_eq_append] at hconcat
  have hlast : Path.IsKept seg := Path.isKept_of_mem_spelledSegments (p := path) (by simp [hconcat])
  obtain ⟨above, hentry⟩ := entry_below hspelled hnull hlength hconcat hparent
  rw [hpath] at hentry
  by_cases hdots : seg = ".."
  · subst hdots
    rw [descend_dots] at hentry
    cases hentry
  · rw [descend_name ⟨hlast.ne_empty, hlast.ne_dot, hdots, hlast.no_slash⟩, member]
      at hentry
    split at hentry
    · cases hentry
    split at hentry <;> cases hentry

/-- **Writing.** A file can be written into a folder that is there, as a new file or in the place of
another. -/
theorem exists_writeBelow (hspelled : Path.IsSpelled path) (hnull : Path.hasNull path = false)
    (hparent : d.isFolder (Path.parent path) = .ok true) (hpath : d.isFolder path = .ok false)
    (bytes : List UInt8) : ∃ changed, d.writeBelow path bytes = (.ok (), changed) := by
  obtain ⟨members, hparent⟩ := exists_folder_of_isFolder hparent
  have hspelledParent : Path.IsSpelled (Path.parent path) :=
    Path.isSpelled_spell (Path.isRoot_rootOf path) fun seg hseg =>
      Path.isKept_of_mem_spelledSegments (List.dropLast_subset _ hseg)
  have hwritten : d.write path bytes = .ok (d.put path (.file bytes)) := by
    unfold isFolder holds at hpath
    split at hpath
    · rename_i e hentry
      cases e with
      | file old =>
        unfold write
        rewrite [hnull, if_neg Bool.false_ne_true, hentry]
        dsimp only
      | folder others => cases hpath
    · rename_i hnone
      unfold write
      rewrite [hnull, if_neg Bool.false_ne_true, hnone]
      exact create_of_entry hparent (.file bytes)
    · rename_i hfolder
      exact absurd hfolder (entry_ne_notFolder hspelled hnull hparent)
    · cases hpath
  refine ⟨d.put path (.file bytes), ?_⟩
  unfold writeBelow
  rewrite [ensureFolders_of_entry hspelledParent hparent]
  dsimp only
  rewrite [hwritten]
  dsimp only

end Writing

end Disk

end SliceLint
