import SliceLint.Proofs.Disk.Place

/-!
# What becomes of the files of a disk

**Putting** (`Entry.fileAt?_put`, `Entry.fileAt?_put_child`). An entry that takes the place of
another, or comes to lie in a folder, changes what lies at its place and below it, and nothing
else.

**Writing** (`Disk.files_writeBelow`). A file that is written lies at the place of its path with its
bytes, and every other file of the disk is as it was. The folders that are made on the way hold no
file (`Disk.sameFiles_ensureFolders`).
-/

namespace SliceLint

namespace Entry

/-! ## Putting -/

theorem lookup_cons_eq_ite (members : List (String × Entry)) (m n : String) (e : Entry) :
    ((m, e) :: members).lookup n = if n = m then some e else members.lookup n := by
  rw [List.lookup_cons]
  by_cases hn : n = m
  · rw [if_pos hn, beq_iff_eq.2 hn]
  · rw [if_neg hn, beq_eq_false_iff_ne.2 hn]

theorem lookup_setMember (members : List (String × Entry)) (name n : String) (e : Entry) :
    (setMember members name e).lookup n = if n = name then some e else members.lookup n := by
  induction members with
  | nil => exact lookup_cons_eq_ite [] name n e
  | cons m members ih =>
    obtain ⟨m, old⟩ := m
    rw [setMember]
    split
    · rename_i hm
      rw [eq_of_beq hm, lookup_cons_eq_ite, lookup_cons_eq_ite]
      by_cases hn : n = name <;> simp [hn]
    · rename_i hm
      rw [lookup_cons_eq_ite, lookup_cons_eq_ite, ih]
      by_cases hn : n = m
      · subst hn
        rw [if_pos rfl, if_pos rfl, if_neg (mt beq_iff_eq.2 hm)]
      · rw [if_neg hn, if_neg hn]

/-- An entry that is put where a way leads on from a place is put on that way from there. -/
theorem put_append {names : List String} {e x : Entry} (h : e.at? names = some x) (new : Entry)
    (more : List String) : put new (names ++ more) e = put (put new more x) names e := by
  induction names generalizing e with
  | nil =>
    cases h
    rfl
  | cons name names ih =>
    cases e with
    | file bytes => cases h
    | folder members =>
      obtain ⟨next, hnext, hx⟩ := Option.bind_eq_some_iff.1 h
      have hlookup : members.lookup name = some next := hnext
      rw [List.cons_append, put, put, hlookup, Option.getD_some, ih hx]

theorem fileAt?_append {names : List String} {e x : Entry} (h : e.at? names = some x)
    (more : List String) : e.fileAt? (names ++ more) = x.fileAt? more := by
  rw [fileAt?, at?_append, h, Option.bind_some, fileAt?]

theorem fileAt?_folder_cons (members : List (String × Entry)) (name : String)
    (names : List String) :
    (folder members).fileAt? (name :: names) = (members.lookup name).bind (fileAt? names) := by
  simp only [fileAt?, at?, child?]
  cases members.lookup name <;> rfl

/-- What lies at the place of an entry that is replaced and below it is the new entry; all other
files stay. -/
theorem fileAt?_put {names : List String} {e x : Entry} (h : e.at? names = some x) (new : Entry)
    (place : List String) :
    (put new names e).fileAt? place =
      if names <+: place then new.fileAt? (place.drop names.length) else e.fileAt? place := by
  induction names generalizing e place with
  | nil => simp [put]
  | cons name names ih =>
    cases e with
    | file bytes => cases h
    | folder members =>
      obtain ⟨next, hnext, hx⟩ := Option.bind_eq_some_iff.1 h
      have hlookup : members.lookup name = some next := hnext
      rw [put, hlookup, Option.getD_some]
      cases place with
      | nil => rfl
      | cons n place =>
        rw [fileAt?_folder_cons, fileAt?_folder_cons, lookup_setMember]
        by_cases hn : n = name
        · subst hn
          rw [if_pos rfl, Option.bind_some, ih hx, hlookup, Option.bind_some]
          simp [List.cons_prefix_cons]
        · have hprefix : ¬ name :: names <+: n :: place := by
            rw [List.cons_prefix_cons]
            exact fun hboth => hn hboth.1.symm
          rw [if_neg hn, if_neg hprefix]

theorem fileAt?_file (bytes : List UInt8) (names : List String) :
    (file bytes).fileAt? names = if names = [] then some bytes else none := by
  cases names <;> rfl

theorem fileAt?_folder_nil (names : List String) : (folder []).fileAt? names = none := by
  cases names <;> rfl

theorem fileAt?_put_file {names : List String} {e : Entry} {old : List UInt8}
    (h : e.at? names = some (file old)) (bytes : List UInt8) (place : List String) :
    (put (file bytes) names e).fileAt? place =
      if place = names then some bytes else e.fileAt? place := by
  rw [fileAt?_put h]
  split
  · rename_i hprefix
    obtain ⟨more, rfl⟩ := hprefix
    rw [List.drop_left, fileAt?_append h, fileAt?_file, fileAt?_file]
    by_cases hmore : more = [] <;> simp [hmore]
  · rename_i hprefix
    rw [if_neg]
    rintro rfl
    exact hprefix (List.prefix_refl _)

section Child

variable {names : List String} {e : Entry} {members : List (String × Entry)} {name : String}

/-- A member of a folder brings its own files along. -/
theorem fileAt?_put_child (h : e.at? names = some (folder members)) (new : Entry)
    (place : List String) :
    (put new (names ++ [name]) e).fileAt? place =
      if names ++ [name] <+: place then new.fileAt? (place.drop (names ++ [name]).length)
      else e.fileAt? place := by
  have hput : put new [name] (folder members) = folder (setMember members name new) := rfl
  rw [put_append h, hput, fileAt?_put h]
  by_cases hprefix : names <+: place
  · obtain ⟨more, rfl⟩ := hprefix
    rw [if_pos (List.prefix_append _ _), List.drop_left, fileAt?_append h]
    simp only [List.prefix_append_right_inj]
    cases more with
    | nil => simp [fileAt?, at?]
    | cons n more =>
      rw [fileAt?_folder_cons, fileAt?_folder_cons, lookup_setMember]
      by_cases hn : n = name
      · subst hn
        simp
      · have hother : ¬ [name] <+: n :: more := by
          rw [List.cons_prefix_cons]
          exact fun hboth => hn hboth.1.symm
        rw [if_neg hn, if_neg hother]
  · have hlonger : ¬ names ++ [name] <+: place := fun hlong =>
      hprefix ((List.prefix_append names [name]).trans hlong)
    rw [if_neg hprefix, if_neg hlonger]

theorem fileAt?_below_new (h : e.at? names = some (folder members))
    (hnew : members.lookup name = none) (more : List String) :
    e.fileAt? (names ++ [name] ++ more) = none := by
  rw [List.append_assoc, fileAt?_append h, List.singleton_append, fileAt?_folder_cons, hnew]
  rfl

theorem fileAt?_put_newFile (h : e.at? names = some (folder members))
    (hnew : members.lookup name = none) (bytes : List UInt8) (place : List String) :
    (put (file bytes) (names ++ [name]) e).fileAt? place =
      if place = names ++ [name] then some bytes else e.fileAt? place := by
  rw [fileAt?_put_child h]
  split
  · rename_i hprefix
    obtain ⟨more, rfl⟩ := hprefix
    rw [List.drop_left, fileAt?_below_new h hnew, fileAt?_file]
    by_cases hmore : more = [] <;> simp [hmore]
  · rename_i hprefix
    rw [if_neg]
    rintro rfl
    exact hprefix (List.prefix_refl _)

theorem fileAt?_put_newFolder (h : e.at? names = some (folder members))
    (hnew : members.lookup name = none) (place : List String) :
    (put (folder []) (names ++ [name]) e).fileAt? place = e.fileAt? place := by
  rw [fileAt?_put_child h]
  split
  · rename_i hprefix
    obtain ⟨more, rfl⟩ := hprefix
    rw [fileAt?_folder_nil, fileAt?_below_new h hnew]
  · rfl

end Child

end Entry

namespace Disk

/-! ## Changes that succeed -/

theorem here_put (d : Disk) (path : String) (e : Entry) : (d.put path e).here = d.here := by
  rw [put]

/-- Two disks that have the same files in the same places, seen from the same folder. -/
structure SameFiles (d changed : Disk) : Prop where
  here : changed.here = d.here
  files : ∀ names, changed.root.fileAt? names = d.root.fileAt? names

theorem SameFiles.refl (d : Disk) : SameFiles d d := ⟨rfl, fun _ => rfl⟩

theorem SameFiles.trans {d d' d'' : Disk} (h : SameFiles d d') (h' : SameFiles d' d'') :
    SameFiles d d'' :=
  ⟨h'.here.trans h.here, fun names => (h'.files names).trans (h.files names)⟩

theorem SameFiles.place_eq {d changed : Disk} (h : SameFiles d changed) (path : String) :
    changed.place path = d.place path := by
  rw [place, absolute, h.here, place, absolute]

/-- The disks have the same files, but for the one at a place, which has the given bytes. -/
structure Gains (d changed : Disk) (place : List String) (bytes : List UInt8) : Prop where
  here : changed.here = d.here
  files : ∀ names, changed.root.fileAt? names =
    if names = place then some bytes else d.root.fileAt? names

theorem lookup_of_member_notFound {members : List (String × Entry)} {name : String}
    (h : member name (.folder members) = .error .notFound) :
    name.utf8ByteSize ≤ nameLimit ∧ members.lookup name = none := by
  rw [member] at h
  split at h
  · cases h
  · rename_i hlimit
    split at h
    · cases h
    · exact ⟨Nat.le_of_not_lt hlimit, ‹_›⟩

theorem Gains.place_eq {d changed : Disk} {place : List String} {bytes : List UInt8}
    (h : Gains d changed place bytes) (path : String) : changed.place path = d.place path := by
  rw [Disk.place, absolute, h.here, Disk.place, absolute]

/-- A path leads nowhere although its folder is there: its last segment is a name that the folder
does not have. -/
theorem exists_of_notFound {d : Disk} {path : String} {members : List (String × Entry)}
    (hempty : path ≠ "") (hnull : Path.hasNull path = false)
    (hpath : d.entry path = .error .notFound)
    (hparent : d.entry (Path.parent path) = .ok (.folder members)) :
    ∃ segs name, Path.spelledSegments path = segs ++ [name] ∧ Path.IsName name ∧
      member name (.folder members) = .error .notFound ∧
      d.place path = d.place (Path.parent path) ++ [name] := by
  have hroot := Path.isRoot_rootOf path
  have hsegs : ∀ seg ∈ (Path.spelledSegments path).dropLast, Path.IsKept seg := fun seg hseg =>
    Path.isKept_of_mem_spelledSegments (List.dropLast_subset _ hseg)
  have hwhole := descend_spelled (descend_of_notFound hempty hnull hpath) (by simp)
  have hfolder := descend_spelled (descend_of_entry hparent) (by simp)
  rw [Path.parent, Path.rootOf_spell hroot hsegs, Path.spelledSegments_spell_root hroot hsegs]
    at hfolder
  rcases List.eq_nil_or_concat (Path.spelledSegments path) with hnil | ⟨segs, seg, hconcat⟩
  · rw [hnil] at hwhole hfolder
    rw [List.dropLast_nil, hwhole] at hfolder
    cases hfolder
  rw [List.concat_eq_append] at hconcat
  have hseg : Path.IsKept seg := Path.isKept_of_mem_spelledSegments (p := path) (by simp [hconcat])
  rw [hconcat, List.dropLast_concat] at hfolder
  rw [hconcat, ← List.append_assoc] at hwhole
  obtain ⟨others, hmore⟩ := descend_append hfolder
  rw [hmore] at hwhole
  by_cases hdots : seg = ".."
  · subst hdots
    rw [descend_dots] at hwhole
    cases hwhole
  have hname : Path.IsName seg := ⟨hseg.ne_empty, hseg.ne_dot, hdots, hseg.no_slash⟩
  refine ⟨segs, seg, hconcat, hname, ?_, ?_⟩
  · rwa [descend_name hname] at hwhole
  · rw [Path.parent, place_spell d hroot hsegs, place_eq, hconcat, List.dropLast_concat,
      ← List.append_assoc, Path.normalSegments_append_names]
    intro name hmem
    rwa [List.mem_singleton.1 hmem]

theorem exists_of_create {d changed : Disk} {path : String} {new : Entry}
    (h : d.create path new = .ok changed) :
    changed = d.put path new ∧ ∃ members, d.entry (Path.parent path) = .ok (.folder members) := by
  unfold create at h
  split at h
  · rename_i members hparent
    exact ⟨(Except.ok.inj h).symm, members, hparent⟩
  · cases h
  · cases h

theorem sameFiles_makeFolder {d changed : Disk} {path : String} (hempty : path ≠ "")
    (h : d.makeFolder path = .ok changed) : SameFiles d changed := by
  unfold makeFolder at h
  split at h
  · cases h
  rename_i hnull
  split at h
  · cases h
  · rename_i hpath
    obtain ⟨rfl, members, hparent⟩ := exists_of_create h
    obtain ⟨segs, name, -, -, hnew, hplace⟩ :=
      exists_of_notFound hempty (Bool.not_eq_true _ ▸ hnull) hpath hparent
    refine ⟨here_put d path _, fun place => ?_⟩
    rw [put, hplace, Entry.fileAt?_put_newFolder (at?_of_entry hparent)
      (lookup_of_member_notFound hnew).2]
  · cases h

theorem gains_write {d changed : Disk} {path : String} {bytes : List UInt8} (hempty : path ≠ "")
    (h : d.write path bytes = .ok changed) : Gains d changed (d.place path) bytes := by
  unfold write at h
  split at h
  · cases h
  rename_i hnull
  split at h
  · rename_i old hpath
    cases h
    refine ⟨here_put d path _, fun place => ?_⟩
    rw [put, Entry.fileAt?_put_file (at?_of_entry hpath)]
  · cases h
  · rename_i hpath
    obtain ⟨rfl, members, hparent⟩ := exists_of_create h
    obtain ⟨segs, name, -, -, hnew, hplace⟩ :=
      exists_of_notFound hempty (Bool.not_eq_true _ ▸ hnull) hpath hparent
    refine ⟨here_put d path _, fun place => ?_⟩
    rw [put, hplace, Entry.fileAt?_put_newFile (at?_of_entry hparent)
      (lookup_of_member_notFound hnew).2]
  · cases h

/-! ## Folders on the way -/

theorem sameFiles_ensureFolder {d : Disk} {path : String} (hempty : path ≠ "") :
    SameFiles d (d.ensureFolder path).2 := by
  unfold ensureFolder
  split
  · rename_i changed hmade
    exact sameFiles_makeFolder hempty hmade
  · split <;> exact .refl d

/-- Whether the folders can be made or not, no file changes. -/
theorem sameFiles_ensureFoldersFrom {root : String} (hroot : Path.IsRoot root)
    {segs : List String} (hsegs : ∀ seg ∈ segs, Path.IsKept seg) (d : Disk) :
    SameFiles d (ensureFoldersFrom root segs d).2 := by
  have hpath : Path.spell root segs.reverse ≠ "" :=
    Path.spell_ne_empty hroot fun seg hseg => hsegs seg (List.mem_reverse.1 hseg)
  induction segs with
  | nil => exact sameFiles_ensureFolder hpath
  | cons seg above ih =>
    have habove : ∀ seg ∈ above, Path.IsKept seg := fun s hs => hsegs s (List.mem_cons_of_mem _ hs)
    have hfirst := ih habove
      (Path.spell_ne_empty hroot fun s hs => habove s (List.mem_reverse.1 hs))
    rw [ensureFoldersFrom]
    split
    · split
      · rename_i changed hmade
        rw [hmade] at hfirst
        exact hfirst.trans (sameFiles_ensureFolder hpath)
      · exact hfirst
    · exact sameFiles_ensureFolder hpath

theorem sameFiles_ensureFolders (d : Disk) (path : String) :
    SameFiles d (d.ensureFolders path).2 :=
  sameFiles_ensureFoldersFrom (Path.isRoot_rootOf path)
    (fun _ hseg => Path.isKept_of_mem_spelledSegments (List.mem_reverse.1 hseg)) d

section Writing

variable {d changed : Disk} {path : String} {bytes : List UInt8}

/-- **Writing.** A file that is written lies at the place of its path, and all other files of the
disk stay. -/
theorem gains_writeBelow (hempty : path ≠ "") (h : d.writeBelow path bytes = (.ok (), changed)) :
    Gains d changed (d.place path) bytes := by
  have hsame := sameFiles_ensureFolders d (Path.parent path)
  unfold writeBelow at h
  split at h
  · rename_i made hmade
    rw [hmade] at hsame
    split at h
    · rename_i written hwritten
      cases h
      have hgains := gains_write hempty hwritten
      rw [hsame.place_eq] at hgains
      exact ⟨hgains.here.trans hsame.here, fun names => by rw [hgains.files, hsame.files]⟩
    · cases h
  · rename_i hfailed
    exact absurd h (hfailed changed)

/-- Where a file cannot be written no file changes. -/
theorem sameFiles_writeBelow {f : Fault} (h : d.writeBelow path bytes = (.error f, changed)) :
    SameFiles d changed := by
  have hsame := sameFiles_ensureFolders d (Path.parent path)
  unfold writeBelow at h
  split at h
  · rename_i made hmade
    rw [hmade] at hsame
    split at h
    · cases h
    · cases h
      exact hsame
  · rw [h] at hsame
    exact hsame

end Writing

end Disk

end SliceLint
