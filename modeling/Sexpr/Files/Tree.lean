import Sexpr.Source.Path

/-! A file system as a value: directories that hold files, and paths that lead to them. -/

namespace Sexpr

/-- Why a path cannot be opened as a file. -/
inductive SystemFault where
  | notFound
  | isDirectory
  | notDirectory
  | nameTooLong
  /-- Anything else that the system reports, such as a lack of permission, in its own words. -/
  | other (words : String)
deriving DecidableEq, Repr

/-- The words for a path that cannot be opened. -/
def SystemFault.text : SystemFault → String
  | notFound => "No such file or directory"
  | isDirectory => "Is a directory"
  | notDirectory => "Not a directory"
  | nameTooLong => "File name too long"
  | other words => words

/-- A file with its bytes or with why they cannot be read, a directory with its entries in the order they
are listed, or a directory that can be neither listed nor entered.

There are no links. The tree says which directories a walk can list: one that it cannot, for lack of
permission or since the path to it has grown longer than the system allows, is a closed one. -/
inductive FileTree where
  | file (contents : Except SystemFault ByteArray)
  | directory (entries : List (String × FileTree))
  | closed (fault : SystemFault)
deriving Inhabited

/-- The most bytes that a name may have. -/
def longestName : Nat := 255

/-- The most bytes that a path text may have. -/
def longestPath : Nat := 4095

/-- Whether a text holds a null character, which no path can. -/
def holdsNull (text : String) : Bool := text.toList.contains (Char.ofNat 0)

/-- The entries at the root, and the names that lead from there to the working directory. -/
structure FileSystem where
  root : List (String × FileTree)
  working : List String := []

namespace FileSystem

/-- Follows names from a tree whose enclosing directories are given, nearest first.

An empty name and a dot stay, but like every name they need a directory to stand in. A name that is too
long is refused in the directory that it is looked up in. -/
def follow : List FileTree → FileTree → List String → Except SystemFault FileTree
  | _, tree, [] => .ok tree
  | _, .file _, _ :: _ => .error .notDirectory
  | _, .closed fault, _ :: _ => .error fault
  | above, .directory entries, name :: names =>
    if name == "" || name == "." then follow above (.directory entries) names
    else if name == ".." then
      match above with
      -- Above the root stands the root itself.
      | [] => follow [] (.directory entries) names
      | parent :: above => follow above parent names
    else if longestName < name.utf8ByteSize then .error .nameTooLong
    else
      match entries.lookup name with
      | none => .error .notFound
      | some tree => follow (.directory entries :: above) tree names

/-- The tree that a path text leads to. An empty text leads nowhere. -/
def find (system : FileSystem) (text : String) : Except SystemFault FileTree :=
  if text == "" then .error .notFound
  else if longestPath < text.utf8ByteSize then .error .nameTooLong
  else
    -- A path that does not open with a slash begins in the working directory.
    let names := slashNames text
    let fromWorking := if text.toList.head? = some '/' then [] else system.working
    follow [] (.directory system.root) (fromWorking ++ names)

/-- Whether a path leads to a directory. Where nothing is found it leads to none; whatever else keeps it
from leading anywhere is an error. -/
def isDirectory (system : FileSystem) (path : Path) : Except SystemFault Bool :=
  if holdsNull path.text then .ok false
  else
    match system.find path.text with
    | .ok (.directory _) | .ok (.closed _) => .ok true
    | .ok (.file _) | .error .notFound | .error .notDirectory => .ok false
    | .error fault => .error fault

end FileSystem

end Sexpr
