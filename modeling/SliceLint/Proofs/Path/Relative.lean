import SliceLint.Proofs.Path.Resolution

/-!
# The way from a file to a module

**Routes** (`Path.route`). From a folder the way to a place leads up to where both part, and down
from there (`Path.exists_route`). It leads to the place (`Path.walk?_route`).

**Imports** (`LocalImport`). A file imports a module below the source root. It may spell the module
from the source root on, behind the prefix of the standard aliases, or along the route from its own
folder. Both spellings are resolved to the path of the module
(`LocalImport.resolveImport?_fromRoot`, `LocalImport.resolveImport?_fromHome`).
-/

namespace SliceLint

namespace Path

/-! ## Routes -/

/-- The way from a folder to a place: up from the folders that do not lead to the place, and down
from there. -/
def route : List String → List String → List String
  | folder :: home, name :: place =>
    if folder = name then route home place
    else ((folder :: home).map fun _ => "..") ++ name :: place
  | home, place => (home.map fun _ => "..") ++ place

/-- A route leads up from where folder and place part, and down from there. -/
theorem exists_route (home place : List String) : ∃ shared up down,
    home = shared ++ up ∧ place = shared ++ down ∧
      route home place = (up.map fun _ => "..") ++ down := by
  induction home generalizing place with
  | nil => exact ⟨[], [], place, rfl, rfl, by rw [route]; simp⟩
  | cons folder home ih =>
    cases place with
    | nil => exact ⟨[], folder :: home, [], rfl, rfl, by rw [route]; simp⟩
    | cons name place =>
      rw [route]
      split
      · rename_i hname
        obtain ⟨shared, up, down, rfl, rfl, hroute⟩ := ih place
        exact ⟨folder :: shared, up, down, rfl, by rw [hname]; rfl, hroute⟩
      · exact ⟨[], folder :: home, name :: place, rfl, rfl, rfl⟩

theorem walk?_route {home place : List String} (hplace : ∀ name ∈ place, IsName name) :
    walk? home (route home place) = some place := by
  obtain ⟨shared, up, down, rfl, rfl, hroute⟩ := exists_route home place
  have hdown := (List.forall_mem_append.1 hplace).2
  rw [hroute, walk?_append, walk?_dots, Option.bind_some, walk?_names hdown]

theorem isKept_of_mem_route (home : List String) {place : List String}
    (hplace : ∀ name ∈ place, IsName name) :
    ∀ seg ∈ route home place, IsKept seg := by
  obtain ⟨shared, up, down, rfl, rfl, hroute⟩ := exists_route home place
  rw [hroute]
  refine isKept_append_names (fun seg hseg => ?_) (List.forall_mem_append.1 hplace).2
  obtain ⟨_, -, rfl⟩ := List.mem_map.1 hseg
  exact ⟨by decide, by decide, by decide⟩

/-- The specifier of a place, relative to a folder. -/
def relativeSpecifier (home place : List String) : String :=
  if (route home place).head? = some ".." then Text.join "/" (route home place)
  else "./" ++ Text.join "/" (route home place)

theorem spelledSegments_relativeSpecifier {home place : List String}
    (hplace : ∀ name ∈ place, IsName name) :
    spelledSegments (relativeSpecifier home place) = route home place := by
  have hjoin := spelledSegments_join (isKept_of_mem_route home hplace)
  rw [relativeSpecifier]
  split
  · exact hjoin
  · have hpoint : spelledSegments "." = [] := by decide +kernel
    rw [show "./" = "." ++ "/" from rfl, spelledSegments_append_slash, hpoint, hjoin,
      List.nil_append]

theorem isRelative_relativeSpecifier (home place : List String) :
    isRelative (relativeSpecifier home place) = true := by
  rw [relativeSpecifier]
  split
  · rename_i hhead
    obtain ⟨segs, hroute⟩ := List.head?_eq_some_iff.1 hhead
    rw [hroute]
    cases segs with
    | nil => simp [Text.join, isRelative]
    | cons next segs =>
      simp [Text.join, String.intercalate_cons_cons, isRelative, String.startsWith_string_iff]
  · simp [isRelative]

end Path

/-- No standard alias stands in front of a relative specifier. -/
theorem Aliases.longest?_standardAliases_of_isRelative {specifier : String}
    (h : isRelative specifier = true) (sourceRoot : String) :
    (Config.standardAliases sourceRoot).longest? specifier = none := by
  simp only [isRelative, Bool.or_eq_true, beq_iff_eq, String.startsWith_string_iff] at h
  rcases h with ((⟨rest, hrest⟩ | ⟨rest, hrest⟩) | rfl) | rfl
  · simp [Config.standardAliases, Config.standardPrefixes, longest?, ← hrest]
  · simp [Config.standardAliases, Config.standardPrefixes, longest?, ← hrest]
  · simp [Config.standardAliases, Config.standardPrefixes, longest?]
  · simp [Config.standardAliases, Config.standardPrefixes, longest?]

/-! ## Imports -/

/-- A module below the source root, and a file that imports it. The first name of the source root
does not start with two points. -/
structure LocalImport where
  roots : List String
  below : List String
  home : List String
  file : String
  roots_ne_nil : roots ≠ []
  names : ∀ name ∈ roots ++ below ++ home ++ [file], Path.IsName name
  noDots : ∀ name ∈ roots.head?, ¬ "..".toList <+: name.toList

namespace LocalImport

variable (i : LocalImport)

def sourceRoot : String := Text.join "/" i.roots

/-- The segments of the module. -/
def place : List String := i.roots ++ i.below

/-- The path of the module. -/
def target : String := Text.join "/" i.place

/-- The path of the importing file. -/
def importer : String := Text.join "/" (i.home ++ [i.file])

/-- The specifier that spells the module from the source root on. -/
def fromRoot : String := "~/" ++ Text.join "/" i.below

/-- The specifier that spells the module along the route from the importing file. -/
def fromHome : String := Path.relativeSpecifier i.home i.place

theorem isName_of_mem_place : ∀ name ∈ i.place, Path.IsName name := fun name hname =>
  i.names name (List.mem_append_left _ (List.mem_append_left _ hname))

theorem place_ne_nil : i.place ≠ [] := List.append_ne_nil_of_left_ne_nil i.roots_ne_nil _

theorem head?_place : i.place.head? = i.roots.head? := by
  rw [place, List.head?_append_of_ne_nil _ i.roots_ne_nil]

theorem resolveImport?_fromRoot (importer : String) :
    resolveImport? i.fromRoot importer (Config.standardAliases i.sourceRoot) = some i.target := by
  obtain ⟨hroots, hbelow⟩ := List.forall_mem_append.1 i.isName_of_mem_place
  have hkept : ∀ {names : List String}, (∀ name ∈ names, Path.IsName name) →
      ∀ name ∈ names, Path.IsKept name := fun h name hname => (h name hname).isKept
  have htrimmed : Path.IsTrimmed i.sourceRoot := Path.isTrimmed_join hroots i.roots_ne_nil
  have habsolute : Path.isAbsolute (i.sourceRoot ++ "/" ++ Text.join "/" i.below) = false := by
    rw [String.append_assoc]
    exact Path.isAbsolute_append (Path.isAbsolute_join (hkept hroots)) htrimmed.ne_empty _
  have hwalk : Path.walk? [] (Path.spelledSegments
      (i.sourceRoot ++ "/" ++ Text.join "/" i.below)) = some i.place := by
    rw [Path.spelledSegments_append_slash, sourceRoot, Path.spelledSegments_join (hkept hroots),
      Path.spelledSegments_join (hkept hbelow)]
    exact Path.walk?_names i.isName_of_mem_place []
  rw [fromRoot, resolveImport?_standardAliases htrimmed,
    Path.normalize_of_walk? habsolute hwalk i.place_ne_nil, target]

theorem resolveImport?_fromHome :
    resolveImport? i.fromHome i.importer (Config.standardAliases i.sourceRoot) =
      some i.target := by
  have hrelative : isRelative i.fromHome = true := Path.isRelative_relativeSpecifier _ _
  have hhome : ∀ name ∈ i.home ++ [i.file], Path.IsName name := fun name hname =>
    i.names name (by rw [List.append_assoc]; exact List.mem_append_right _ hname)
  have hwalk : Path.walk? i.home (Path.spelledSegments i.fromHome) = some i.place := by
    rw [fromHome, Path.spelledSegments_relativeSpecifier i.isName_of_mem_place]
    exact Path.walk?_route i.isName_of_mem_place
  exact (resolveImport?_of_walk? (Aliases.longest?_standardAliases_of_isRelative hrelative _)
    hrelative hhome hwalk i.place_ne_nil (i.head?_place ▸ i.noDots)).1

end LocalImport

end SliceLint
