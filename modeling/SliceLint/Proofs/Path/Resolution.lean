import SliceLint.Proofs.Path.Import
import SliceLint.Proofs.Path.Spelling

/-!
# Where a specifier leads

**Walking** (`Path.walk?`). A path is followed from a folder: a name leads down into it, and `..`
leads up again. The normal form of a path names the place to which it leads
(`Path.segments_normalize_of_walk?`): the stack on which it is built is the folder reached so far.
For a path that is not absolute it is written as the place is (`Path.normalize_of_walk?`).

**Specifiers** (`Specifies`). A specifier is followed from the folder that its prefix stands for, or
from the folder of the importing file. Names behind a prefix are such a specifier
(`Specifies.of_alias`), and so are names behind points that lead up (`Specifies.of_folder`). It is
resolved to the place to which it leads (`Specifies.exists_resolveImport?`).
-/

namespace SliceLint

namespace Path

/-! ## Walking -/

/-- Where the segments of a spelled path lead from a folder, unless they lead out of the project. -/
def walk? (here : List String) : List String → Option (List String)
  | [] => some here
  | seg :: segs =>
    if seg = ".." then if here = [] then none else walk? here.dropLast segs
    else walk? (here ++ [seg]) segs

theorem walk?_append (here segs segs' : List String) :
    walk? here (segs ++ segs') = (walk? here segs).bind fun there => walk? there segs' := by
  induction segs generalizing here with
  | nil => rfl
  | cons seg segs ih =>
    rw [List.cons_append, walk?, walk?]
    split
    · split
      · rfl
      · exact ih _
    · exact ih _

theorem walk?_names {names : List String} (h : ∀ name ∈ names, IsName name) (here : List String) :
    walk? here names = some (here ++ names) := by
  induction names generalizing here with
  | nil => rw [walk?, List.append_nil]
  | cons name names ih =>
    obtain ⟨hname, hnames⟩ := List.forall_mem_cons.1 h
    rw [walk?, if_neg hname.ne_dots, ih hnames, List.append_assoc, List.singleton_append]

theorem walk?_dots (front back : List String) :
    walk? (front ++ back) (back.map fun _ => "..") = some front := by
  induction back using List.reverseRecOn with
  | nil => rw [List.append_nil, List.map_nil, walk?]
  | append_singleton back name ih =>
    have hne : front ++ (back ++ [name]) ≠ [] := by simp
    have hdots : (back ++ [name]).map (fun _ => "..") = ".." :: back.map fun _ => ".." := by
      simp only [List.map_const', List.length_append, List.length_singleton, List.replicate_succ]
    have hlast : (front ++ (back ++ [name])).dropLast = front ++ back := by
      rw [← List.append_assoc, List.dropLast_concat]
    rw [hdots, walk?, if_pos rfl, if_neg hne, hlast, ih]

/-- The stack of the normal form is the folder that is reached. -/
theorem foldl_push_of_walk? {rooted : Bool} {here segs there : List String}
    (hsegs : ∀ seg ∈ segs, IsKept seg) (hhere : ".." ∉ here) (h : walk? here segs = some there) :
    segs.foldl (push rooted) here.reverse = there.reverse := by
  induction segs generalizing here with
  | nil =>
    rw [walk?, Option.some.injEq] at h
    rw [h, List.foldl_nil]
  | cons seg segs ih =>
    obtain ⟨hseg, hsegs⟩ := List.forall_mem_cons.1 hsegs
    rw [walk?] at h
    split at h
    · rename_i hdots
      split at h
      · cases h
      rename_i hne
      obtain ⟨front, last, rfl⟩ := (List.eq_nil_or_concat' here).resolve_left hne
      rw [List.dropLast_concat] at h
      -- `..` takes the name on top along, for no `..` is on the stack
      have hpush : push rooted (front ++ [last]).reverse seg = front.reverse := by
        rw [List.reverse_append, List.reverse_singleton, List.singleton_append, push, hdots]
        have hlast : last ≠ ".." := fun heq => hhere (by simp [heq])
        simp [hlast]
      rw [List.foldl_cons, hpush]
      exact ih hsegs (fun hmem => hhere (List.mem_append_left _ hmem)) h
    · rename_i hdots
      have hpush : push rooted here.reverse seg = (here ++ [seg]).reverse := by
        simp [push, hseg.ne_empty, hseg.ne_dot, hdots]
      rw [List.foldl_cons, hpush]
      refine ih hsegs ?_ h
      rw [List.mem_append, List.mem_singleton]
      rintro (hmem | heq)
      · exact hhere hmem
      · exact hdots heq.symm

theorem normalSegments_of_walk? {p : String} {there : List String}
    (h : walk? [] (spelledSegments p) = some there) (rooted : Bool) :
    normalSegments rooted (pieces p) = there := by
  rw [← normalSegments_spelledSegments, normalSegments, ← List.reverse_nil,
    foldl_push_of_walk? (fun _ => isKept_of_mem_spelledSegments) List.not_mem_nil h,
    List.reverse_reverse]

/-- The normal form of a path names the place to which the path leads. -/
theorem segments_normalize_of_walk? {p : String} {there : List String}
    (h : walk? [] (spelledSegments p) = some there) (hne : there ≠ []) :
    segments (normalize p) = there := by
  have hnormal := normalSegments_of_walk? h
  by_cases hroot : rootOf p = ""
  · rw [segments_normalize hroot (by rwa [hnormal]), hnormal]
  · rw [rootOf_eq_empty_iff, Bool.not_eq_false] at hroot
    rw [segments_normalize_absolute hroot, hnormal]

theorem normalize_of_walk? {p : String} {there : List String} (hp : isAbsolute p = false)
    (h : walk? [] (spelledSegments p) = some there) (hne : there ≠ []) :
    normalize p = Text.join "/" there := by
  have hroot := rootOf_eq_empty_iff.2 hp
  have hnormal := normalSegments_of_walk? h
  have hempty : Text.join "/" there ≠ "" := by
    intro heq
    -- otherwise the normal form would be a point, and no normal segment is one
    have hsegments := segments_normalize_of_walk? h hne
    have hpoint : normalize p = "." := by simp [normalize, hroot, hnormal, heq]
    have hdot : "." ∉ normalSegments false (pieces p) :=
      (isNormal_normalSegments fun _ => notMem_of_mem_pieces).dot_notMem
    rw [hnormal, ← hsegments, hpoint] at hdot
    exact hdot (by decide +kernel)
  simp [normalize, hroot, hnormal, hempty]

/-! ## Folders -/

theorem spelledSegments_rdropWhile (cs : List Char) :
    spelledSegments (String.ofList (cs.rdropWhile (· == '/'))) =
      spelledSegments (String.ofList cs) := by
  induction cs using List.reverseRecOn with
  | nil => rfl
  | append_singleton cs c ih =>
    by_cases hc : c = '/'
    · subst hc
      have hslash := spelledSegments_append_slash (String.ofList cs) ""
      have hempty : spelledSegments "" = [] := by decide +kernel
      rw [String.append_empty, hempty, List.append_nil] at hslash
      rw [List.rdropWhile_concat_pos _ _ _ (by decide), ih, ← hslash]
      congr 1
      rw [← String.toList_inj]
      simp
    · rw [List.rdropWhile_concat_neg _ _ _ (by simpa using hc)]

theorem join_concat {segs : List String} (hne : segs ≠ []) (seg : String) :
    Text.join "/" (segs ++ [seg]) = Text.join "/" segs ++ "/" ++ seg := by
  induction segs with
  | nil => exact absurd rfl hne
  | cons first segs ih =>
    cases segs with
    | nil => simp [Text.join, String.intercalate_cons_cons]
    | cons next segs =>
      have hjoin : ∀ rest, Text.join "/" (first :: next :: rest) =
          first ++ "/" ++ Text.join "/" (next :: rest) := fun rest => by
        simp [Text.join, String.intercalate_cons_cons]
      have hrest := ih (List.cons_ne_nil next segs)
      rw [List.cons_append] at hrest
      rw [List.cons_append, List.cons_append, hjoin, hjoin, hrest]
      simp only [String.append_assoc]

/-- The last of several segments stands alone or behind a slash. -/
theorem exists_join_concat (segs : List String) (seg : String) :
    ∃ front, (Text.join "/" (segs ++ [seg])).toList = front ++ seg.toList ∧
      ∀ c ∈ front.getLast?, c = '/' := by
  by_cases hne : segs = []
  · exact ⟨[], by simp [hne, Text.join], by simp⟩
  · exact ⟨(Text.join "/" segs).toList ++ ['/'], by simp [join_concat hne], by simp⟩

/-- Names that are joined make a path without a slash at its ends. -/
theorem isTrimmed_join {names : List String} (h : ∀ name ∈ names, IsName name) (hne : names ≠ []) :
    IsTrimmed (Text.join "/" names) := by
  have hkept : ∀ name ∈ names, IsKept name := fun name hname => (h name hname).isKept
  have hempty : Text.join "/" names ≠ "" := by
    intro heq
    have hspell := spell_ne_empty (Or.inl rfl) hkept
    rw [spell, if_neg (by simpa using hne), heq] at hspell
    exact hspell rfl
  refine ⟨hempty, head?_join hkept, ?_⟩
  obtain ⟨front, last, rfl⟩ := (List.eq_nil_or_concat' names).resolve_left hne
  have hlast := h last (List.mem_append_right _ (List.mem_singleton_self _))
  obtain ⟨start, hstart, -⟩ := exists_join_concat front last
  have hsome : last.toList ≠ [] := fun hnil => hlast.ne_empty (String.toList_eq_nil_iff.1 hnil)
  rw [hstart, List.getLast?_append_of_ne_nil _ hsome]
  exact fun hslash => hlast.no_slash (List.mem_of_getLast? hslash)

/-- What stands alone or behind the last slash is the last segment. -/
theorem baseName_of_front {p name : String} {front : List Char}
    (hp : p.toList = front ++ name.toList) (hfront : ∀ c ∈ front.getLast?, c = '/')
    (hname : '/' ∉ name.toList) : baseName p = name := by
  have htake : front.reverse.takeWhile (· != '/') = [] := by
    cases hchars : front.reverse with
    | nil => rfl
    | cons c cs =>
      have hslash : c = '/' := hfront c (by rw [← List.head?_reverse, hchars]; rfl)
      rw [List.takeWhile_cons_of_neg (by simp [hslash])]
  rw [baseName, hp, List.reverse_append,
    List.takeWhile_append_of_pos (Text.bne_of_mem_reverse hname), htake, List.append_nil,
    List.reverse_reverse, String.ofList_toList]

theorem baseName_of_no_slash {name : String} (h : '/' ∉ name.toList) : baseName name = name :=
  baseName_of_front (List.nil_append _).symm (by simp) h

theorem directory_of_no_slash {file : String} (h : '/' ∉ file.toList) : directory file = "" := by
  have hall : file.toList.reverse.dropWhile (· != '/') = [] :=
    List.dropWhile_eq_nil_iff.2 (Text.bne_of_mem_reverse h)
  simp [directory, hall]

theorem directory_append_slash {folder file : String} (hfolder : IsTrimmed folder)
    (hfile : '/' ∉ file.toList) : directory (folder ++ "/" ++ file) = folder := by
  have hchars : (folder ++ "/" ++ file).toList.reverse =
      file.toList.reverse ++ '/' :: folder.toList.reverse := by simp
  have hhead : (folder ++ "/" ++ file).toList.reverse.dropWhile (· != '/') =
      '/' :: folder.toList.reverse := by
    rw [hchars, List.dropWhile_append_of_pos (Text.bne_of_mem_reverse hfile),
      List.dropWhile_cons_of_neg (by decide)]
  have hbare : ('/' :: folder.toList.reverse).dropWhile (· == '/') = folder.toList.reverse := by
    rw [List.dropWhile_cons_of_pos (by decide), List.dropWhile_eq_self_iff]
    intro hlt hslash
    refine hfolder.last ?_
    rw [← List.head?_reverse, List.head?_eq_getElem?, List.getElem?_eq_getElem hlt,
      beq_iff_eq.1 hslash]
  have hne : folder.toList.reverse.isEmpty = false := by
    rw [List.isEmpty_eq_false_iff, ne_eq, List.reverse_eq_nil_iff]
    exact fun hnil => hfolder.ne_empty (String.toList_eq_nil_iff.1 hnil)
  simp only [directory, hhead, hbare, hne, Bool.false_eq_true, if_false, List.reverse_reverse,
    String.ofList_toList]

theorem spelledSegments_join {segs : List String} (h : ∀ seg ∈ segs, IsKept seg) :
    spelledSegments (Text.join "/" segs) = segs := by
  rw [spelledSegments, segments_join (fun seg hseg => (h seg hseg).no_slash)
    fun hempty => (h "" hempty).ne_empty rfl, List.filter_eq_self]
  exact fun seg hseg => bne_iff_ne.2 (h seg hseg).ne_dot

theorem directory_join {home : List String} {file : String}
    (h : ∀ name ∈ home ++ [file], IsName name) :
    directory (Text.join "/" (home ++ [file])) = Text.join "/" home := by
  obtain ⟨hhome, hfile⟩ := List.forall_mem_append.1 h
  have hfile := (hfile file (List.mem_singleton_self file)).no_slash
  by_cases hne : home = []
  · subst hne
    rw [List.nil_append, Text.join, String.intercalate_singleton, directory_of_no_slash hfile]
    rfl
  · rw [join_concat hne, directory_append_slash (isTrimmed_join hhome hne) hfile]

theorem spelledSegments_directory_join {home : List String} {file : String}
    (h : ∀ name ∈ home ++ [file], IsName name) :
    spelledSegments (directory (Text.join "/" (home ++ [file]))) = home := by
  rw [directory_join h]
  exact spelledSegments_join fun name hname => (h name (List.mem_append_left _ hname)).isKept

theorem isAbsolute_join {segs : List String} (h : ∀ seg ∈ segs, IsKept seg) :
    isAbsolute (Text.join "/" segs) = false := by
  rw [← Bool.not_eq_true, isAbsolute_iff]
  exact head?_join h

theorem isAbsolute_append {p : String} (hp : isAbsolute p = false) (hne : p ≠ "") (q : String) :
    isAbsolute (p ++ q) = false := by
  rw [← Bool.not_eq_true, isAbsolute_iff] at hp ⊢
  cases hchars : p.toList with
  | nil => exact absurd (String.toList_eq_nil_iff.1 hchars) hne
  | cons c cs =>
    rw [hchars] at hp
    rwa [String.toList_append, hchars, List.cons_append]

theorem isAbsolute_under {base p : String} (hbase : isAbsolute base = false)
    (hp : isAbsolute p = false) : isAbsolute (under base p) = false := by
  by_cases hempty : base = ""
  · simp [under, hp, hempty]
  · rw [under, if_neg (by rw [hp]; exact Bool.false_ne_true)]
    split
    · exact isAbsolute_append hbase hempty p
    · rw [String.append_assoc]
      exact isAbsolute_append hbase hempty _

/-- A path that starts with two points has a first segment that does. -/
theorem exists_head?_of_dots {p : String} (h : "..".toList <+: p.toList) :
    ∃ name ∈ (segments p).head?, "..".toList <+: name.toList := by
  obtain ⟨rest, hrest⟩ := h
  have hcut : ∃ piece cs, Text.cut '/' p.toList = ('.' :: '.' :: piece) :: cs := by
    have hchars : p.toList = '.' :: '.' :: rest := by simpa using hrest.symm
    rw [hchars]
    cases hcut : Text.cut '/' rest with
    | nil => exact ⟨[], [], by simp [Text.cut, hcut]⟩
    | cons piece cs => exact ⟨piece, cs, by simp [Text.cut, hcut]⟩
  obtain ⟨piece, cs, hcut⟩ := hcut
  refine ⟨String.ofList ('.' :: '.' :: piece), ?_, ?_⟩
  · simp [segments, pieces, hcut]
  · exact ⟨piece, by simp⟩

end Path

/-! ## Specifiers -/

theorem isAbsolute_eq_false_of_isRelative {specifier : String} (h : isRelative specifier = true) :
    Path.isAbsolute specifier = false := by
  rw [← Bool.not_eq_true, Path.isAbsolute_iff]
  intro hslash
  simp only [isRelative, Bool.or_eq_true, beq_iff_eq, String.startsWith_string_iff] at h
  rcases h with ((⟨rest, hrest⟩ | ⟨rest, hrest⟩) | rfl) | rfl
  · simp [← hrest] at hslash
  · simp [← hrest] at hslash
  · simp at hslash
  · simp at hslash

/-- The specifier leads, from the importing file, to the place with the given segments: from the
folder that its prefix stands for, or from the folder of the importing file. Relative to a file no
place is found whose segments start with two points. -/
inductive Specifies (aliases : Aliases) (specifier importer : String) (place : List String) : Prop
  | aliased (lead folder : String) (hlead : aliases.longest? specifier = some (lead, folder))
    (hwalk : Path.walk? [] (Path.spelledSegments folder ++
      Path.spelledSegments (String.ofList (specifier.toList.drop lead.length))) = some place)
  | relative (home : List String) (file : String) (hlead : aliases.longest? specifier = none)
    (hrelative : isRelative specifier = true)
    (himporter : importer = Text.join "/" (home ++ [file]))
    (hnames : ∀ name ∈ home ++ [file], Path.IsName name)
    (hwalk : Path.walk? home (Path.spelledSegments specifier) = some place)
    (hdots : ∀ name ∈ place.head?, ¬ "..".toList <+: name.toList)

/-- Names behind a prefix lead down from the folder that the prefix stands for. -/
theorem Specifies.of_alias {aliases : Aliases} {lead folder : String} {names : List String}
    (hlead : aliases.longest? (lead ++ Text.join "/" names) = some (lead, folder))
    (hfolder : ∀ name ∈ Path.spelledSegments folder, Path.IsName name)
    (hnames : ∀ name ∈ names, Path.IsName name) (importer : String) :
    Specifies aliases (lead ++ Text.join "/" names) importer
      (Path.spelledSegments folder ++ names) := by
  have hrest : String.ofList ((lead ++ Text.join "/" names).toList.drop lead.length) =
      Text.join "/" names := by
    simp [String.length]
  refine .aliased lead folder hlead ?_
  rw [hrest, Path.spelledSegments_join fun name hname => (hnames name hname).isKept,
    Path.walk?_names (List.forall_mem_append.2 ⟨hfolder, hnames⟩)]
  rfl

/-- From the folder of a file points lead up to a folder on the way, and names down from there. -/
theorem Specifies.of_folder {aliases : Aliases} {front back names : List String} {file : String}
    (hlead : aliases.longest? ("./" ++ Text.join "/" ((back.map fun _ => "..") ++ names)) = none)
    (hhome : ∀ name ∈ front ++ back ++ [file], Path.IsName name)
    (hnames : ∀ name ∈ names, Path.IsName name)
    (hdots : ∀ name ∈ (front ++ names).head?, ¬ "..".toList <+: name.toList) :
    Specifies aliases ("./" ++ Text.join "/" ((back.map fun _ => "..") ++ names))
      (Text.join "/" (front ++ back ++ [file])) (front ++ names) := by
  have hkept : ∀ seg ∈ (back.map fun _ => "..") ++ names, Path.IsKept seg := by
    refine List.forall_mem_append.2 ⟨?_, fun name hname => (hnames name hname).isKept⟩
    intro seg hseg
    obtain ⟨_, -, rfl⟩ := List.mem_map.1 hseg
    exact ⟨by decide, by decide, by decide⟩
  have hrelative :
      isRelative ("./" ++ Text.join "/" ((back.map fun _ => "..") ++ names)) = true := by
    simp [isRelative]
  refine .relative (front ++ back) file hlead hrelative rfl hhome ?_ hdots
  have hpoint : Path.spelledSegments "." = [] := by decide +kernel
  have hsegments : Path.spelledSegments
      ("./" ++ Text.join "/" ((back.map fun _ => "..") ++ names)) =
        (back.map fun _ => "..") ++ names := by
    rw [show "./" = "." ++ "/" from rfl, Path.spelledSegments_append_slash, hpoint,
      Path.spelledSegments_join hkept, List.nil_append]
  rw [hsegments, Path.walk?_append, Path.walk?_dots, Option.bind_some, Path.walk?_names hnames]

theorem resolveImport?_of_walk? {aliases : Aliases} {specifier file : String}
    {home place : List String} (hlead : aliases.longest? specifier = none)
    (hrelative : isRelative specifier = true) (hnames : ∀ name ∈ home ++ [file], Path.IsName name)
    (hwalk : Path.walk? home (Path.spelledSegments specifier) = some place) (hne : place ≠ [])
    (hdots : ∀ name ∈ place.head?, ¬ "..".toList <+: name.toList) :
    resolveImport? specifier (Text.join "/" (home ++ [file])) aliases =
      some (Text.join "/" place) ∧ Path.segments (Text.join "/" place) = place := by
  obtain ⟨hhome, -⟩ := List.forall_mem_append.1 hnames
  have hspecifier := isAbsolute_eq_false_of_isRelative hrelative
  let path := Path.under (Path.directory (Text.join "/" (home ++ [file]))) specifier
  have hpath : Path.walk? [] (Path.spelledSegments path) = some place := by
    rw [Path.spelledSegments_under hspecifier, Path.spelledSegments_directory_join hnames,
      Path.walk?_append, Path.walk?_names hhome]
    exact hwalk
  have habsolute : Path.isAbsolute path = false := by
    refine Path.isAbsolute_under ?_ hspecifier
    rw [Path.directory_join hnames]
    exact Path.isAbsolute_join fun name hname => (hhome name hname).isKept
  have hnormal : Path.normalize path = Text.join "/" place :=
    Path.normalize_of_walk? habsolute hpath hne
  have hsegments : Path.segments (Text.join "/" place) = place := by
    rw [← hnormal]
    exact Path.segments_normalize_of_walk? hpath hne
  refine ⟨?_, hsegments⟩
  rw [resolveImport?, hlead]
  dsimp only
  rw [if_pos hrelative, hnormal, if_neg]
  rw [String.startsWith_string_iff]
  intro hstart
  obtain ⟨name, hname, hpoints⟩ := Path.exists_head?_of_dots hstart
  rw [hsegments] at hname
  exact hdots name hname hpoints

theorem Specifies.exists_resolveImport? {aliases : Aliases} {specifier importer : String}
    {place : List String} (h : Specifies aliases specifier importer place) (hne : place ≠ []) :
    ∃ path, resolveImport? specifier importer aliases = some path ∧
      Path.segments path = place := by
  cases h with
  | aliased lead folder hlead hwalk =>
    let base := String.ofList (folder.toList.reverse.dropWhile (· == '/')).reverse
    let rest := String.ofList (specifier.toList.drop lead.length)
    have hbase : Path.spelledSegments base = Path.spelledSegments folder := by
      have hdrop := Path.spelledSegments_rdropWhile folder.toList
      rwa [String.ofList_toList] at hdrop
    have hresolve : resolveImport? specifier importer aliases =
        some (Path.normalize (base ++ "/" ++ rest)) := by
      rw [resolveImport?, hlead]
    refine ⟨_, hresolve, Path.segments_normalize_of_walk? ?_ hne⟩
    rw [Path.spelledSegments_append_slash, hbase]
    exact hwalk
  | relative home file hlead hrelative himporter hnames hwalk hdots =>
    rw [himporter]
    exact ⟨_, resolveImport?_of_walk? hlead hrelative hnames hwalk hne hdots⟩

end SliceLint
