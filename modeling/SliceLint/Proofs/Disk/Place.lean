import SliceLint.Disk.Change
import SliceLint.Proofs.Path.Spelling
import SliceLint.Proofs.Sequence

/-!
# Places on a disk

The place of a path on a disk depends on its root and its spelled segments (`Disk.place_eq`). A path
that is not absolute starts from the folder that the disk is seen from.

**One segment** (`Disk.step_eq_ok_iff`). From a folder a segment stays, goes up or goes down
(`Disk.Leads`); from a file it leads nowhere. All that is proved about a path rests on this and on an
induction over its segments (`Disk.descend_cons`).

**Following** (`Disk.at?_of_entry`). Where a path leads to an entry, that entry lies at its place.
What carries the proof is that the folders above an entry are those that the names on the way to it
lead to (`Disk.LiesAt`), so that `..` takes the last of these names back.

**Skipped segments** (`Disk.descend_kept`). Empty and `.` segments matter only where they stand
behind a file.
-/

namespace SliceLint

namespace Entry

/-- The member of a folder with a name. -/
def child? (name : String) : Entry → Option Entry
  | file _ => none
  | folder members => members.lookup name

/-- The entry at a place below another. -/
def at? : List String → Entry → Option Entry
  | [], e => some e
  | name :: names, e => (e.child? name).bind (at? names)

/-- The bytes of the file at a place below an entry. -/
def fileAt? (names : List String) (e : Entry) : Option (List UInt8) :=
  match e.at? names with
  | some (file bytes) => some bytes
  | _ => none

theorem fileAt?_eq_some_iff {names : List String} {e : Entry} {bytes : List UInt8} :
    e.fileAt? names = some bytes ↔ e.at? names = some (file bytes) := by
  unfold fileAt?
  split
  · simp_all
  · rename_i hnone
    exact ⟨nofun, fun h => (hnone bytes h).elim⟩

theorem at?_append (names more : List String) (e : Entry) :
    e.at? (names ++ more) = (e.at? names).bind (at? more) := by
  induction names generalizing e with
  | nil => rfl
  | cons name names ih =>
    rw [List.cons_append, at?, at?]
    cases e.child? name with
    | none => rfl
    | some next => exact ih next

end Entry

namespace Disk

/-! ## The place of a path -/

/-- The segments before those of a path with the given root. -/
def front (d : Disk) (root : String) : List String :=
  if root = "" then Path.spelledSegments d.here else []

theorem spelledSegments_absolute (d : Disk) (path : String) :
    Path.spelledSegments (d.absolute path) =
      d.front (Path.rootOf path) ++ Path.spelledSegments path := by
  rw [absolute, front]
  by_cases hroot : Path.rootOf path = ""
  · rw [if_pos hroot, Path.spelledSegments_under (Path.rootOf_eq_empty_iff.1 hroot)]
  · have habsolute : Path.isAbsolute path = true := by
      rw [← Bool.not_eq_false]
      exact mt Path.rootOf_eq_empty_iff.2 hroot
    rw [if_neg hroot, Path.under, if_pos habsolute, List.nil_append]

/-- **Places.** The place of a path is where its spelled segments lead from its root. -/
theorem place_eq (d : Disk) (path : String) :
    d.place path = Path.normalSegments true
      (d.front (Path.rootOf path) ++ Path.spelledSegments path) := by
  rw [place, ← Path.normalSegments_spelledSegments, spelledSegments_absolute]

theorem place_absolute (d : Disk) {path : String} (h : Path.isAbsolute path = true) :
    d.place path = Path.normalSegments true (Path.pieces path) := by
  rw [place, absolute, Path.under, if_pos h]

theorem place_spell (d : Disk) {root : String} (hroot : Path.IsRoot root) {segs : List String}
    (h : ∀ seg ∈ segs, Path.IsKept seg) :
    d.place (Path.spell root segs) = Path.normalSegments true (d.front root ++ segs) := by
  rw [place_eq, Path.rootOf_spell hroot h, Path.spelledSegments_spell_root hroot h]

/-! ## One segment -/

theorem member_eq_ok_iff {name : String} {e next : Entry} :
    member name e = .ok next ↔ name.utf8ByteSize ≤ nameLimit ∧ e.child? name = some next := by
  cases e with
  | file bytes => simp [member, Entry.child?]
  | folder members =>
    rw [member, Entry.child?]
    split
    · rename_i hlimit
      simp [Nat.not_le_of_lt hlimit]
    · rename_i hlimit
      cases members.lookup name <;> simp [Nat.le_of_not_lt hlimit]

section Segment

variable {above : List Entry} {e : Entry} {seg : String} {segs : List String}

/-- Where one segment leads: the entry, and the folders above it. -/
def step (above : List Entry) (e : Entry) (seg : String) :
    Except DiskFault (List Entry × Entry) :=
  if seg = "" ∨ seg = "." then if e.isFolder then .ok (above, e) else .error .notFolder
  else if seg = ".." then
    if e.isFolder then .ok (above.tail, above.headD e) else .error .notFolder
  else (member seg e).map fun next => (e :: above, next)

theorem descend_cons :
    descend above e (seg :: segs) =
      (step above e seg).bind fun reached => descend reached.1 reached.2 segs := by
  rw [descend.eq_def, step]
  simp only [beq_iff_eq, Bool.or_eq_true]
  by_cases hskip : seg = "" ∨ seg = "."
  · rw [if_pos hskip, if_pos hskip]
    split <;> rfl
  rw [if_neg hskip, if_neg hskip]
  by_cases hdots : seg = ".."
  · rw [if_pos hdots, if_pos hdots]
    split
    · cases above <;> rfl
    · rfl
  · rw [if_neg hdots, if_neg hdots]
    cases member seg e <;> rfl

/-- A segment leads on from a folder: it stays, or goes up, or goes down to a member. -/
inductive Leads (above : List Entry) (e : Entry) (seg : String) : List Entry × Entry → Prop
  | stay (h : seg = "" ∨ seg = ".") : Leads above e seg (above, e)
  | up (h : seg = "..") : Leads above e seg (above.tail, above.headD e)
  | down {next : Entry} (hskip : ¬ (seg = "" ∨ seg = ".")) (hdots : seg ≠ "..")
      (hlimit : seg.utf8ByteSize ≤ nameLimit) (hchild : e.child? seg = some next) :
      Leads above e seg (e :: above, next)

theorem step_eq_ok_iff {reached : List Entry × Entry} :
    step above e seg = .ok reached ↔ e.isFolder = true ∧ Leads above e seg reached := by
  constructor
  · intro h
    unfold step at h
    split at h
    · rename_i hskip
      split at h
      · rename_i hfolder
        cases h
        exact ⟨hfolder, .stay hskip⟩
      · cases h
    rename_i hskip
    split at h
    · rename_i hdots
      split at h
      · rename_i hfolder
        cases h
        exact ⟨hfolder, .up hdots⟩
      · cases h
    · rename_i hdots
      obtain ⟨next, hmember, heq⟩ := map_eq_ok h
      cases heq
      obtain ⟨hlimit, hchild⟩ := member_eq_ok_iff.1 hmember
      cases e with
      | file bytes => cases hchild
      | folder members => exact ⟨rfl, .down hskip hdots hlimit hchild⟩
  · rintro ⟨hfolder, hleads⟩
    cases hleads with
    | stay h => rw [step, if_pos h, if_pos hfolder]
    | up h => rw [step, h, if_neg (by decide), if_pos rfl, if_pos hfolder]
    | down hskip hdots hlimit hchild =>
      rw [step, if_neg hskip, if_neg hdots, member_eq_ok_iff.2 ⟨hlimit, hchild⟩]
      rfl

theorem descend_name (h : Path.IsName seg) : descend above e [seg] = member seg e := by
  rw [descend_cons, step, if_neg (not_or.2 ⟨h.ne_empty, h.ne_dot⟩), if_neg h.ne_dots]
  cases member seg e <;> rfl

theorem descend_dots (members : List (String × Entry)) :
    descend above (.folder members) [".."] = .ok (above.headD (.folder members)) := by
  rw [descend_cons]
  rfl

end Segment

/-! ## Following a path -/

/-- An entry lies below a root, with the folders above it, where the given names lead. The names and
the folders come in reverse. -/
inductive LiesAt (root : Entry) : List String → List Entry → Entry → Prop
  | root : LiesAt root [] [] root
  | child {names : List String} {above : List Entry} {e next : Entry} {name : String} :
      LiesAt root names above e → name ≠ ".." → e.child? name = some next →
      LiesAt root (name :: names) (e :: above) next

namespace LiesAt

variable {root e : Entry} {names : List String} {above : List Entry}

theorem at?_eq (h : LiesAt root names above e) : root.at? names.reverse = some e := by
  induction h with
  | root => rfl
  | child _ _ hchild ih => simp [Entry.at?_append, ih, Entry.at?, hchild]

/-- The folder above lies where the last name is taken back. -/
theorem parent (h : LiesAt root names above e) :
    LiesAt root (Path.push true names "..") above.tail (above.headD e) := by
  cases h with
  | root => exact .root
  | @child names _ _ _ name hparent hname _ =>
    have hpush : Path.push true (name :: names) ".." = names := by simp [Path.push, hname]
    rw [hpush]
    exact hparent

theorem leads {seg : String} {reached : List Entry × Entry} (h : LiesAt root names above e)
    (hleads : Leads above e seg reached) :
    LiesAt root (Path.push true names seg) reached.1 reached.2 := by
  cases hleads with
  | stay hskip =>
    rw [Path.push_skipped hskip]
    exact h
  | up hdots =>
    rw [hdots]
    exact h.parent
  | down hskip hdots _ hchild =>
    have hpush : Path.push true names seg = seg :: names := by
      simp [Path.push, not_or.1 hskip, hdots]
    rw [hpush]
    exact .child h hdots hchild

theorem descend {segs : List String} {found : Entry} (h : LiesAt root names above e)
    (hfound : Disk.descend above e segs = .ok found) :
    ∃ others, LiesAt root (segs.foldl (Path.push true) names) others found := by
  induction segs generalizing names above e with
  | nil =>
    cases hfound
    exact ⟨above, h⟩
  | cons seg segs ih =>
    rw [descend_cons] at hfound
    obtain ⟨reached, hstep, hfound⟩ := bind_eq_ok hfound
    rw [List.foldl_cons]
    exact ih (h.leads (step_eq_ok_iff.1 hstep).2) hfound

end LiesAt

section Paths

variable {d : Disk} {path : String} {e : Entry}

/-- A path that may be followed is followed from the root of the disk. -/
theorem entry_eq_descend (hempty : path ≠ "") (hnull : Path.hasNull path = false)
    (hlength : path.utf8ByteSize < pathLimit) (d : Disk) :
    d.entry path = descend [] d.root (Path.pieces (d.absolute path)) := by
  rw [entry, hnull, Bool.or_false, beq_eq_false_iff_ne.2 hempty, if_neg Bool.false_ne_true,
    if_neg (Nat.not_le_of_lt hlength)]

theorem length_lt_of_entry (hempty : path ≠ "") (hnull : Path.hasNull path = false)
    (h : d.entry path ≠ .error .nameTooLong) : path.utf8ByteSize < pathLimit := by
  refine Nat.lt_of_not_le fun hlong => h ?_
  rw [entry, hnull, Bool.or_false, beq_eq_false_iff_ne.2 hempty, if_neg Bool.false_ne_true,
    if_pos hlong]

/-- A path that can be followed is neither empty nor too long, and no null character is in it. -/
theorem usable_of_entry (h : d.entry path = .ok e) :
    path ≠ "" ∧ Path.hasNull path = false ∧ path.utf8ByteSize < pathLimit := by
  unfold entry at h
  split at h
  · cases h
  · rename_i hnone
    split at h
    · cases h
    · rename_i hlength
      have hsome : path ≠ "" ∧ Path.hasNull path = false := by simpa using hnone
      exact ⟨hsome.1, hsome.2, Nat.lt_of_not_le hlength⟩

theorem lists_of_long (h : pathLimit ≤ path.utf8ByteSize) : d.lists path = false := by
  cases hentry : d.entry path with
  | error f => rw [lists, hentry]
  | ok e => exact absurd (usable_of_entry hentry).2.2 (Nat.not_lt_of_le h)

theorem descend_of_entry (h : d.entry path = .ok e) :
    descend [] d.root (Path.pieces (d.absolute path)) = .ok e := by
  obtain ⟨hempty, hnull, hlength⟩ := usable_of_entry h
  rw [← entry_eq_descend hempty hnull hlength, h]

theorem descend_of_notFound (hempty : path ≠ "") (hnull : Path.hasNull path = false)
    (h : d.entry path = .error .notFound) :
    descend [] d.root (Path.pieces (d.absolute path)) = .error .notFound := by
  have hlength := length_lt_of_entry hempty hnull (by rw [h]; simp)
  rw [← entry_eq_descend hempty hnull hlength, h]

/-- **Following.** What a path leads to lies at its place. -/
theorem at?_of_entry (h : d.entry path = .ok e) : d.root.at? (d.place path) = some e := by
  obtain ⟨others, hlies⟩ := LiesAt.root.descend (descend_of_entry h)
  exact hlies.at?_eq

end Paths

/-! ## Skipped segments -/

/-- The segments that are not skipped. -/
def kept (segs : List String) : List String := segs.filter fun seg => seg != "." && seg != ""

theorem kept_skipped {seg : String} (h : seg = "" ∨ seg = ".") (segs : List String) :
    kept (seg :: segs) = kept segs := by
  rw [kept, List.filter_cons, if_neg, kept]
  simpa [or_comm, imp_iff_not_or] using h

theorem kept_cons {seg : String} (h : ¬ (seg = "" ∨ seg = ".")) (segs : List String) :
    kept (seg :: segs) = seg :: kept segs := by
  rw [kept, List.filter_cons, if_pos, kept]
  simpa [not_or, and_comm] using h

theorem kept_pieces (path : String) : kept (Path.pieces path) = Path.spelledSegments path := by
  rw [kept, ← List.filter_filter, ← Path.segments, ← Path.spelledSegments]

/-- Segments that are skipped matter only where they stand behind a file. -/
theorem descend_kept {segs : List String} {above : List Entry} {e : Entry}
    (h : descend above e segs ≠ .error .notFolder) :
    descend above e (kept segs) = descend above e segs := by
  induction segs generalizing above e with
  | nil => rfl
  | cons seg segs ih =>
    rw [descend_cons] at h ⊢
    by_cases hskip : seg = "" ∨ seg = "."
    · rw [kept_skipped hskip]
      rw [step, if_pos hskip] at h ⊢
      split at h
      · rename_i hfolder
        rw [if_pos hfolder]
        exact ih h
      · exact absurd rfl h
    · rw [kept_cons hskip, descend_cons]
      cases hstep : step above e seg with
      | error f => rfl
      | ok reached =>
        rw [hstep] at h
        exact ih h

/-- What a path leads to, or that it leads nowhere, is found along its spelled segments. -/
theorem descend_spelled {d : Disk} {path : String} {r : Except DiskFault Entry}
    (h : descend [] d.root (Path.pieces (d.absolute path)) = r) (hr : r ≠ .error .notFolder) :
    descend [] d.root (d.front (Path.rootOf path) ++ Path.spelledSegments path) = r := by
  have hkept := descend_kept (h ▸ hr)
  rwa [kept_pieces, spelledSegments_absolute, h] at hkept

theorem descend_append {segs : List String} {above : List Entry} {e found : Entry}
    (h : descend above e segs = .ok found) :
    ∃ others, ∀ more, descend above e (segs ++ more) = descend others found more := by
  induction segs generalizing above e with
  | nil =>
    cases h
    exact ⟨above, fun _ => rfl⟩
  | cons seg segs ih =>
    rw [descend_cons] at h
    obtain ⟨reached, hstep, h⟩ := bind_eq_ok h
    simp only [List.cons_append, descend_cons, hstep]
    exact ih h

end Disk

end SliceLint
