import Sexpr.CommandLine.Check

/-! The command line on the real file system: what the arguments name is loaded, then checked. -/

namespace Sexpr

/-- The fault that an error of the system stands for; other than for a missing file its words are kept. -/
def SystemFault.ofError : IO.Error → SystemFault
  | .noFileOrDirectory .. => .notFound
  | .permissionDenied _ _ words | .resourceExhausted _ _ words | .inappropriateType _ _ words
  | .invalidArgument _ _ words | .noSuchThing _ _ words => .other words
  | .hardwareFault _ words | .otherError _ words => .other words
  | error => .other error.toString

mutual

/-- The tree at a path. What cannot be read or listed comes with the reason why. -/
partial def loadTree (path : String) : IO FileTree := do
  try
    let place ← IO.FS.realPath path
    if ← place.isDir then loadDirectory path else return .file (.ok (← IO.FS.readBinFile path))
  catch error => return .file (.error (.ofError error))

/-- The directory at a path. -/
partial def loadDirectory (path : String) : IO FileTree := do
  try
    let mut entries := #[]
    for entry in ← (← IO.FS.realPath path).readDir do
      -- A walk does not go on behind a link to a directory.
      let linked := (← entry.path.symlinkMetadata).type == .symlink
      unless linked && (← entry.path.isDir) do
        entries := entries.push (entry.fileName, ← loadTree (path ++ "/" ++ entry.fileName))
    return .directory entries.toList
  catch error => return .closed (.ofError error)

end

/-- Where a path leads to and the tree there. Of a path that leads nowhere it is the file on the way, or the
closed directory that it would have to pass. -/
partial def loadPath (path : Path) : IO (Option (Path × FileTree)) := do
  let around := { path with names := path.names.dropLast }
  try
    discard (IO.FS.realPath path.text)
    return some (path, ← loadTree path.text)
  catch _ =>
    -- How reading fails tells what is in the way.
    try
      discard (IO.FS.readBinFile path.text)
      return none
    catch
      | .permissionDenied _ _ words => return some (around, .closed (.other words))
      | .inappropriateType .. => loadPath around
      | _ => return none

/-- Entries with a tree put at the end of a row of names; a directory on the way is made if needed. -/
def plant (tree : FileTree) : List String → List (String × FileTree) → List (String × FileTree)
  | [], entries => entries
  | [name], entries => (name, tree) :: entries.filter (·.1 != name)
  | name :: names, entries =>
    match entries.lookup name with
    -- Nothing can be reached in a closed directory.
    | some (.closed _) => entries
    | some (.directory inner) =>
      (name, .directory (plant tree names inner)) :: entries.filter (·.1 != name)
    | _ => (name, .directory (plant tree names [])) :: entries.filter (·.1 != name)

/-- The names from the root to where a path leads, steps upwards taken out. -/
def absoluteNames (working : List String) (path : Path) : List String :=
  let start := match path.anchor with
    | .relative => working
    | _ => []
  path.names.foldl (fun names name => if name == ".." then names.dropLast else names ++ [name]) start

/-- The part of the real file system that arguments lead to. -/
def loadSystem (arguments : List String) : IO FileSystem := do
  let current ← IO.currentDir
  let working := (Path.ofText current.toString).names
  let mut root := plant (.directory []) working []
  for argument in arguments do
    if let some (path, tree) ← loadPath (Path.ofText argument) then
      match absoluteNames working path with
      | [] => if let .directory entries := tree then root := entries
      | names => root := plant tree names root
  return { root, working }

end Sexpr

/-- Checks the files that the arguments name. -/
def main (arguments : List String) : IO UInt32 := do
  let report := Sexpr.runCommand (← Sexpr.loadSystem arguments) arguments
  (← IO.getStdout).putStr report.stdout
  (← IO.getStderr).putStr report.stderr
  match report.ending with
  | .status code => return code.toUInt32
  | .stopped fault =>
    (← IO.getStderr).putStrLn fault.message
    return 1
