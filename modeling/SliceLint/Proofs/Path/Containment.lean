import SliceLint.Proofs.Path.Alias
import SliceLint.Proofs.Path.Resolution

/-!
# Imports that leave the project

**Climbing out** (`ClimbsOut`). A specifier is followed from the project folder, down to the folder
that its prefix stands for, or to that of the importing file, and on from there. It climbs out where
`..` segments lead above the project folder on the way.

**Within the project** (`Path.isWithin_normalize_iff`). The normal form of a path that is not absolute
is a path of the project exactly when the path does not climb out. The stack on which the normal form
is built is the folder reached so far, and a `..` that leads above the project folder stays at its
bottom (`Path.exists_foldl_push_of_bottom`).

**Resolution** (`within_iff_not_climbsOut`). A relative specifier that climbs out is not resolved. One
that climbs out behind an alias prefix is resolved to a path outside of the project
(`exists_resolved_outside`).
-/

namespace SliceLint

namespace Path

/-! ## Paths of the project -/

/-- A normal path of the project: the project folder, or names that lead down from it. -/
def IsWithin (p : String) : Prop :=
  ∃ names, (∀ name ∈ names, IsName name) ∧ p = spell "" names

theorem IsWithin.dots_notMem {p : String} (h : IsWithin p) : ".." ∉ segments p := by
  obtain ⟨names, hnames, rfl⟩ := h
  cases names with
  | nil => decide +kernel
  | cons name names =>
    rw [segments_spell_root (Or.inl rfl) (fun name hname => (hnames name hname).isKept)
      (Or.inr (List.cons_ne_nil name names))]
    exact fun hdots => (hnames ".." hdots).ne_dots rfl

/-! ## Climbing out -/

theorem isName_of_walk? {here segs there : List String} (hhere : ∀ name ∈ here, IsName name)
    (hsegs : ∀ seg ∈ segs, IsKept seg) (h : walk? here segs = some there) :
    ∀ name ∈ there, IsName name := by
  induction segs generalizing here with
  | nil =>
    rw [walk?, Option.some.injEq] at h
    exact h ▸ hhere
  | cons seg segs ih =>
    obtain ⟨hseg, hsegs⟩ := List.forall_mem_cons.1 hsegs
    rw [walk?] at h
    split at h
    · split at h
      · cases h
      · exact ih (fun name hname => hhere name (List.dropLast_subset _ hname)) hsegs h
    · rename_i hdots
      have hname : IsName seg := ⟨hseg.ne_empty, hseg.ne_dot, hdots, hseg.no_slash⟩
      exact ih (List.forall_mem_append.2 ⟨hhere, List.forall_mem_singleton.2 hname⟩) hsegs h

/-- A `..` at the bottom of the stack stays there. -/
theorem exists_foldl_push_of_bottom (segs front : List String) :
    ∃ front', segs.foldl (push false) (front ++ [".."]) = front' ++ [".."] := by
  refine List.foldlRecOn segs (push false) (b := front ++ [".."])
    (motive := fun stack => ∃ front', stack = front' ++ [".."]) ⟨front, rfl⟩ ?_
  rintro _ ⟨front, rfl⟩ seg -
  by_cases hskip : seg = "" ∨ seg = "."
  · exact ⟨front, push_skipped hskip⟩
  by_cases hdots : seg = ".."
  · subst hdots
    cases front with
    | nil => exact ⟨[".."], rfl⟩
    | cons top front =>
      by_cases htop : top = ".."
      · exact ⟨".." :: top :: front, by simp [push, htop]⟩
      · exact ⟨front, by simp [push, htop]⟩
  · exact ⟨seg :: front, by simp [push, not_or.1 hskip, hdots]⟩

/-- Where segments climb out, a `..` is at the bottom of the stack. -/
theorem exists_foldl_push_of_walk? {here segs : List String} (hsegs : ∀ seg ∈ segs, IsKept seg)
    (hhere : ".." ∉ here) (h : walk? here segs = none) :
    ∃ front, segs.foldl (push false) here.reverse = front ++ [".."] := by
  induction segs generalizing here with
  | nil => cases h
  | cons seg segs ih =>
    obtain ⟨hseg, hsegs⟩ := List.forall_mem_cons.1 hsegs
    have hone : ∀ there, walk? here [seg] = some there →
        push false here.reverse seg = there.reverse := fun there hthere =>
      foldl_push_of_walk? (List.forall_mem_singleton.2 hseg) hhere hthere
    rw [List.foldl_cons]
    rw [walk?] at h
    split at h
    · rename_i hdots
      split at h
      · rename_i hempty
        rw [hempty, hdots]
        exact exists_foldl_push_of_bottom segs []
      · rename_i hne
        rw [hone here.dropLast (by rw [walk?, if_pos hdots, if_neg hne, walk?])]
        exact ih hsegs (fun hmem => hhere (List.dropLast_subset _ hmem)) h
    · rename_i hdots
      rw [hone (here ++ [seg]) (by rw [walk?, if_neg hdots, walk?])]
      refine ih hsegs ?_ h
      rw [List.mem_append, List.mem_singleton]
      rintro (hmem | heq)
      · exact hhere hmem
      · exact hdots heq.symm

/-- The normal form of a path that climbs out starts with a `..` segment. -/
theorem exists_normalSegments_of_walk?_eq_none {p : String}
    (h : walk? [] (spelledSegments p) = none) :
    ∃ segs, normalSegments false (pieces p) = ".." :: segs := by
  obtain ⟨front, hfront⟩ := exists_foldl_push_of_walk?
    (fun _ => isKept_of_mem_spelledSegments) List.not_mem_nil h
  refine ⟨front.reverse, ?_⟩
  rw [← normalSegments_spelledSegments, normalSegments, ← List.reverse_nil, hfront,
    List.reverse_append, List.reverse_singleton, List.singleton_append]

section Relative

variable {p : String} (hp : isAbsolute p = false)

include hp

theorem normalize_eq_spell {place : List String}
    (h : walk? [] (spelledSegments p) = some place) : normalize p = spell "" place := by
  by_cases hne : place = []
  · have hnormal := normalSegments_of_walk? h false
    rw [hne] at hnormal ⊢
    simp [normalize, rootOf_eq_empty_iff.2 hp, hnormal, Text.join, spell]
  · rw [normalize_of_walk? hp h hne, spell, if_neg (by simpa using hne), String.empty_append]

theorem isWithin_normalize {place : List String}
    (h : walk? [] (spelledSegments p) = some place) : IsWithin (normalize p) :=
  ⟨place, isName_of_walk? (fun _ hname => absurd hname List.not_mem_nil)
    (fun _ => isKept_of_mem_spelledSegments) h, normalize_eq_spell hp h⟩

theorem dots_mem_of_walk?_eq_none (h : walk? [] (spelledSegments p) = none) :
    ".." ∈ segments (normalize p) := by
  obtain ⟨segs, hsegs⟩ := exists_normalSegments_of_walk?_eq_none h
  rw [segments_normalize (rootOf_eq_empty_iff.2 hp) (by simp [hsegs]), hsegs]
  exact List.mem_cons_self

theorem startsWith_dots_of_walk?_eq_none (h : walk? [] (spelledSegments p) = none) :
    (normalize p).startsWith ".." = true := by
  obtain ⟨segs, hsegs⟩ := exists_normalSegments_of_walk?_eq_none h
  have hjoin : ∃ tail, Text.join "/" (".." :: segs) = ".." ++ tail := by
    cases segs with
    | nil => exact ⟨"", by simp [Text.join]⟩
    | cons seg segs => exact ⟨_, by rw [Text.join, String.intercalate_cons_cons, String.append_assoc]⟩
  obtain ⟨tail, htail⟩ := hjoin
  have hnormal : normalize p = ".." ++ tail := by
    simp [normalize, rootOf_eq_empty_iff.2 hp, hsegs, htail]
  rw [hnormal, String.startsWith_string_iff]
  exact ⟨tail.toList, by simp⟩

/-- **Within the project.** The normal form of a relative path is a path of the project exactly when
the path does not climb out. -/
theorem isWithin_normalize_iff :
    IsWithin (normalize p) ↔ walk? [] (spelledSegments p) ≠ none := by
  constructor
  · intro hwithin hnone
    exact hwithin.dots_notMem (dots_mem_of_walk?_eq_none hp hnone)
  · intro hsome
    obtain ⟨place, hplace⟩ := Option.ne_none_iff_exists'.1 hsome
    exact isWithin_normalize hp hplace

end Relative

/-! ## Folders -/

theorem isAbsolute_of_prefix {p q : String} (h : p.toList <+: q.toList)
    (hq : isAbsolute q = false) : isAbsolute p = false := by
  rw [← Bool.not_eq_true, isAbsolute_iff] at hq ⊢
  intro hslash
  obtain ⟨rest, hrest⟩ := h
  refine hq ?_
  rw [← hrest, List.head?_append, hslash]
  rfl

theorem directory_prefix (p : String) : (directory p).toList <+: p.toList := by
  have hhead : p.toList.reverse.dropWhile (· != '/') <:+ p.toList.reverse :=
    List.dropWhile_suffix _
  rw [directory, String.toList_ofList, ← List.reverse_suffix, List.reverse_reverse]
  split
  · exact hhead
  · exact (List.dropWhile_suffix _).trans hhead

theorem trimmedEnd_prefix (p : String) : (trimmedEnd p).toList <+: p.toList := by
  rw [trimmedEnd, String.toList_ofList]
  exact List.rdropWhile_prefix _ _

theorem spelledSegments_trimmedEnd (p : String) :
    spelledSegments (trimmedEnd p) = spelledSegments p := by
  have hdrop := spelledSegments_rdropWhile p.toList
  rwa [String.ofList_toList] at hdrop

theorem trimmedEnd_ne_empty {p : String} (hp : isAbsolute p = false) (hne : p ≠ "") :
    trimmedEnd p ≠ "" := by
  intro hempty
  rw [trimmedEnd, ← String.toList_inj, String.toList_ofList, String.toList_empty,
    List.rdropWhile_eq_nil_iff] at hempty
  rw [← Bool.not_eq_true, isAbsolute_iff] at hp
  cases hchars : p.toList with
  | nil => exact hne (String.toList_eq_nil_iff.1 hchars)
  | cons c cs =>
    have hc : c = '/' := by simpa using hempty c (by rw [hchars]; exact List.mem_cons_self)
    exact hp (by rw [hchars, hc, List.head?_cons])

end Path

/-! ## Specifiers -/

/-- The specifier leads above the project folder on its way: behind a prefix, or from the importing
file. -/
inductive ClimbsOut (aliases : Aliases) (specifier importer : String) : Prop
  | aliased (lead target rest : String) (hlead : aliases.longest? specifier = some (lead, target))
    (hrest : specifier = lead ++ rest)
    (hwalk : Path.walk? [] (Path.spelledSegments target ++ Path.spelledSegments rest) = none)
  | relative (hlead : aliases.longest? specifier = none) (hrelative : isRelative specifier = true)
    (hwalk : Path.walk? [] (Path.spelledSegments (Path.directory importer) ++
      Path.spelledSegments specifier) = none)

section Specifiers

variable {aliases : Aliases} {specifier importer : String}

/-- A path that a relative specifier is resolved to lies in the project, and one that climbs out is
resolved to none. -/
theorem within_of_longest?_eq_none (specifier : String) (himporter : Path.isAbsolute importer = false)
    (hlead : aliases.longest? specifier = none) :
    (∀ path, resolveImport? specifier importer aliases = some path →
      Path.IsWithin path ∧ ¬ ClimbsOut aliases specifier importer) ∧
    (ClimbsOut aliases specifier importer → resolveImport? specifier importer aliases = none) := by
  rw [resolveImport?_of_longest?_eq_none hlead]
  split
  · rename_i hrelative
    have hspecifier := isAbsolute_eq_false_of_isRelative hrelative
    have hunder : Path.isAbsolute (Path.under (Path.directory importer) specifier) = false :=
      Path.isAbsolute_under
        (Path.isAbsolute_of_prefix (Path.directory_prefix importer) himporter) hspecifier
    have hsegments : Path.spelledSegments (Path.under (Path.directory importer) specifier) =
        Path.spelledSegments (Path.directory importer) ++ Path.spelledSegments specifier :=
      Path.spelledSegments_under hspecifier
    cases hwalk : Path.walk? []
        (Path.spelledSegments (Path.under (Path.directory importer) specifier)) with
    | none =>
      have hnone : ∀ path : String, path.startsWith ".." = true →
          (some path).filter (fun path => !path.startsWith "..") = none := by
        intro path hpath
        rw [Option.filter_some, hpath]
        rfl
      rw [hnone _ (Path.startsWith_dots_of_walk?_eq_none hunder hwalk)]
      exact ⟨nofun, fun _ => rfl⟩
    | some place =>
      have hinside : ¬ ClimbsOut aliases specifier importer := by
        rintro (⟨lead, target, rest, hsome, -, -⟩ | ⟨-, -, hout⟩)
        · rw [hlead] at hsome
          cases hsome
        · rw [← hsegments, hwalk] at hout
          cases hout
      refine ⟨fun path hpath => ⟨?_, hinside⟩, fun hout => absurd hout hinside⟩
      rw [Option.filter_eq_some_iff] at hpath
      rw [← Option.some.inj hpath.1]
      exact Path.isWithin_normalize hunder hwalk
  · exact ⟨nofun, fun _ => rfl⟩

/-- Behind an alias prefix a specifier is resolved to a path, which lies in the project unless the
specifier climbs out. -/
theorem exists_resolved_of_longest? (importer : String) {lead target : String}
    (htargets : ∀ entry ∈ aliases, entry.2 ≠ "" ∧ Path.isAbsolute entry.2 = false)
    (hlead : aliases.longest? specifier = some (lead, target)) :
    ∃ path, resolveImport? specifier importer aliases = some path ∧
      (Path.IsWithin path ↔ ¬ ClimbsOut aliases specifier importer) := by
  have hlongest := Aliases.isLongestOf_longest? aliases specifier
  rw [hlead] at hlongest
  obtain ⟨hne, htarget⟩ := htargets _ hlongest.mem
  obtain ⟨cs, hcs⟩ := hlongest.leads
  have hrest : specifier = lead ++ String.ofList cs := by
    rw [← String.toList_inj, ← hcs]
    simp
  let path := Path.trimmedEnd target ++ "/" ++ String.ofList cs
  have hpath : Path.isAbsolute path = false := by
    have htrimmed := Path.isAbsolute_of_prefix (Path.trimmedEnd_prefix target) htarget
    have happend := Path.isAbsolute_append htrimmed (Path.trimmedEnd_ne_empty htarget hne)
      ("/" ++ String.ofList cs)
    rwa [← String.append_assoc] at happend
  have hsegments : Path.spelledSegments path =
      Path.spelledSegments target ++ Path.spelledSegments (String.ofList cs) := by
    rw [Path.spelledSegments_append_slash, Path.spelledSegments_trimmedEnd]
  refine ⟨_, resolveImport?_of_longest? hlead hrest importer, ?_⟩
  rw [Path.isWithin_normalize_iff hpath, not_iff_not, hsegments]
  constructor
  · exact ClimbsOut.aliased lead target _ hlead hrest
  · rintro (⟨lead', target', rest', hlead', hrest', hout⟩ | ⟨hnone, -, -⟩)
    · rw [hlead] at hlead'
      cases hlead'
      rw [hrest, ← String.toList_inj, String.toList_append, String.toList_append,
        List.append_cancel_left_eq, String.toList_inj] at hrest'
      rwa [hrest']
    · rw [hlead] at hnone
      cases hnone

end Specifiers

/-- **Imports that leave the project.** Let the importing file be spelled from the project folder, and
the aliases stand for folders that are. A path to which a specifier is resolved is a path of the
project exactly when the specifier does not climb out; and one that climbs out is resolved to none
exactly when no alias prefix leads it. -/
theorem within_iff_not_climbsOut {aliases : Aliases} {importer : String}
    (himporter : Path.isAbsolute importer = false)
    (htargets : ∀ entry ∈ aliases, entry.2 ≠ "" ∧ Path.isAbsolute entry.2 = false)
    (specifier : String) :
    (∀ path, resolveImport? specifier importer aliases = some path →
      (Path.IsWithin path ↔ ¬ ClimbsOut aliases specifier importer)) ∧
    (ClimbsOut aliases specifier importer →
      (resolveImport? specifier importer aliases = none ↔
        ∀ entry ∈ aliases, ¬ entry.1.toList <+: specifier.toList)) := by
  rw [← Aliases.longest?_eq_none_iff]
  cases hlead : aliases.longest? specifier with
  | none =>
    obtain ⟨hwithin, hout⟩ := within_of_longest?_eq_none specifier himporter hlead
    exact ⟨fun path hpath => iff_of_true (hwithin path hpath).1 (hwithin path hpath).2,
      fun hclimbs => iff_of_true (hout hclimbs) rfl⟩
  | some entry =>
    obtain ⟨path, hpath, hwithin⟩ := exists_resolved_of_longest? importer htargets hlead
    rw [hpath]
    refine ⟨fun _ heq => ?_, fun _ => iff_of_false nofun nofun⟩
    rw [← Option.some.inj heq]
    exact hwithin

/-- Out of `app`, two folders up: from a file of that folder the specifier is resolved to none, behind
the prefix of the folder it is resolved to a path that does not lie in the project. -/
theorem within_iff_not_climbsOut_app :
    resolveImport? "../../x" "app/a.ts" [("~/", "app")] = none ∧
      ∃ path, resolveImport? "~/../../x" "app/a.ts" [("~/", "app")] = some path ∧
        ¬ Path.IsWithin path := by
  have himporter : Path.isAbsolute "app/a.ts" = false := by decide +kernel
  have htargets : ∀ entry ∈ [("~/", "app")], entry.2 ≠ "" ∧ Path.isAbsolute entry.2 = false := by
    decide +kernel
  have hrelative : ClimbsOut [("~/", "app")] "../../x" "app/a.ts" :=
    .relative (by decide) (by decide +kernel) (by decide +kernel)
  have haliased : ClimbsOut [("~/", "app")] "~/../../x" "app/a.ts" :=
    .aliased "~/" "app" "../../x" (by decide) rfl (by decide +kernel)
  have hpath : resolveImport? "~/../../x" "app/a.ts" [("~/", "app")] = some "../x" := by
    decide +kernel
  refine ⟨((within_iff_not_climbsOut himporter htargets "../../x").2 hrelative).2 (by decide),
    "../x", hpath, fun hwithin => ?_⟩
  exact ((within_iff_not_climbsOut himporter htargets "~/../../x").1 "../x" hpath).1 hwithin haliased

/-- A specifier of a file of the project leads out of it, behind a prefix that stands for one of its
folders. -/
theorem exists_resolved_outside :
    ∃ aliases specifier importer path, Path.IsWithin importer ∧
      (∀ entry ∈ aliases, Path.IsWithin entry.2) ∧
      resolveImport? specifier importer aliases = some path ∧ ¬ Path.IsWithin path := by
  refine ⟨[("~/", "app")], "~/../../x", "app/a.ts", "../x", ⟨["app", "a.ts"], by decide, by decide⟩,
    ?_, by decide +kernel, fun hwithin => hwithin.dots_notMem (by decide +kernel)⟩
  exact List.forall_mem_singleton.2 ⟨["app"], by decide, by decide⟩

end SliceLint
