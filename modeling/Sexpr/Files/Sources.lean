import Sexpr.Files.Tree

/-! Source files below a directory, in an order that does not depend on how directories are listed. -/

namespace Sexpr

/-- Entries by ascending name. -/
def sortByName {α : Type} (entries : List (String × α)) : List (String × α) :=
  entries.mergeSort fun entry other => decide (entry.1 ≤ other.1)

/-- The suffix that an extension stands for; its leading point may be left out. -/
def extensionSuffix (extension : String) : String :=
  if extension.toList.head? = some '.' then extension else "." ++ extension

namespace FileTree

/-- The files among entries, with their paths. -/
def files (path : Path) (entries : List (String × FileTree)) : List (String × Path) :=
  entries.filterMap fun
    | (name, .file _) => some (name, path.child name)
    | _ => none

mutual

/-- The files with a suffix in a directory at a path, then those in its subdirectories. -/
def sources (suffix : String) (path : Path) : FileTree → List Path
  | file _ => []
  -- A directory that cannot be listed is passed over.
  | closed _ => []
  | directory entries =>
    -- The files of a directory come first, by name, then its subdirectories, by name.
    let own := (sortByName (files path entries)).map (·.2)
    let below := (sortByName (subSources suffix path entries)).map (·.2)
    own.filter (·.suffix == suffix) ++ below.flatten

/-- The subdirectories among entries, with the files in them. -/
def subSources (suffix : String) (path : Path) :
    List (String × FileTree) → List (String × List Path)
  | [] => []
  | (_, .file _) :: entries => subSources suffix path entries
  | (name, .closed _) :: entries => (name, []) :: subSources suffix path entries
  | (name, .directory below) :: entries =>
    (name, sources suffix (path.child name) (.directory below)) :: subSources suffix path entries

end

end FileTree

/-- The files below a path text whose suffix is that of an extension. -/
def FileSystem.sourceFiles (system : FileSystem) (text extension : String) : List Path :=
  match system.find text with
  | .ok tree => tree.sources (extensionSuffix extension) (Path.ofText text)
  | .error _ => []

end Sexpr
