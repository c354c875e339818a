import SliceLint.Path

/-!
# What an import specifier names

A specifier that starts with an alias prefix names a path below the alias's target; of several
prefixes the longest counts. A specifier that starts with `./` or `../` names a path relative to
the importing file. Every other specifier names a package, which has no path in the project.
-/

namespace SliceLint

/-- Import prefixes and the directories they stand for. -/
abbrev Aliases := List (String × String)

/-- The entry with the longest prefix of the specifier. -/
def Aliases.longest? (aliases : Aliases) (specifier : String) : Option (String × String) :=
  aliases.foldl (fun best? entry =>
    if entry.1.toList.isPrefixOf specifier.toList then
      match best? with
      | none => some entry
      | some best => if best.1.length < entry.1.length then some entry else some best
    else best?) none

/-- The specifier is relative to the importing file. -/
def isRelative (specifier : String) : Bool :=
  specifier.startsWith "./" || specifier.startsWith "../" || specifier == "." || specifier == ".."

/-- The project-relative path a specifier names. -/
def resolveImport? (specifier importer : String) (aliases : Aliases) : Option String :=
  match aliases.longest? specifier with
  | some (lead, target) =>
    let base := String.ofList (target.toList.reverse.dropWhile (· == '/')).reverse
    let rest := String.ofList (specifier.toList.drop lead.length)
    some (Path.normalize (base ++ "/" ++ rest))
  | none =>
    if isRelative specifier then
      let path := Path.normalize (Path.under (Path.directory importer) specifier)
      if path.startsWith ".." then none else some path
    else none

end SliceLint
