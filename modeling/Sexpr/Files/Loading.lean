import Sexpr.Files.Sources
import Sexpr.Journal.Reading

/-! Loading: source text from files, and the lists of a file or of all files below a directory. -/

namespace Sexpr

/-- Why a file cannot be loaded. -/
inductive LoadFault where
  | unreadable (fault : SystemFault)
  /-- The bytes are not UTF-8. -/
  | undecodable
  /-- The path holds a null character. -/
  | nullCharacter
  | notDirectory (path : Path)
  /-- A directory is to be searched, but for no extension. -/
  | noExtension
  | malformed (error : Error)
deriving DecidableEq

/-- The words for a file that cannot be loaded. -/
def LoadFault.message : LoadFault → String
  | unreadable fault => fault.text
  | undecodable => "not UTF-8"
  | nullCharacter => "embedded null byte"
  | notDirectory path => path.text ++ " is not a directory"
  | noExtension => "no extension to search for"
  | malformed error => error.message

namespace FileSystem

/-- The text of the file at a path text, with its line ends as they are. -/
def readSource (system : FileSystem) (text : String) : Except LoadFault String :=
  if holdsNull text then .error .nullCharacter
  else
    match system.find text with
    | .error fault => .error (.unreadable fault)
    | .ok (.directory _) => .error (.unreadable .isDirectory)
    | .ok (.closed fault) | .ok (.file (.error fault)) => .error (.unreadable fault)
    | .ok (.file (.ok contents)) =>
      -- Line ends stay as they are on disk.
      match String.fromUTF8? contents with
      | some source => .ok source
      | none => .error .undecodable

/-- The files with an extension below a path text, in the order in which they are loaded. -/
def listSources (system : FileSystem) (text extension : String) : Except LoadFault (List Path) :=
  if holdsNull text then .error .nullCharacter else .ok (system.sourceFiles text extension)

/-- A reading whose errors are those of a malformed file. -/
def reading {α : Type} (computation : Logged Error α) : Logged LoadFault α :=
  computation.mapError LoadFault.malformed

/-- The lists of the file at a path text, at positions in it. -/
def parseFile (system : FileSystem) (text : String) : Logged LoadFault (List Cursor) := do
  let source ← Logged.silently (system.readSource text)
  reading (Logged.parseLists source (Path.ofText text).text)

/-- The lists of a file in a directory; an error in it is on record with its path. -/
def parseMember (system : FileSystem) (path : Path) : Logged LoadFault (List Cursor) :=
  (system.parseFile path.text).handle fun fault => do
    -- Only an error in the text is on record; a file that cannot be read is not.
    if let .malformed error := fault then
      Logged.record Channel.files.name s!"Failed to parse {path.text}: {error.text}"
    throw fault

/-- The lists of all files with an extension below a directory, up to the first file that fails. -/
def parseDirectory (system : FileSystem) (text extension : String) :
    Logged LoadFault (List Cursor) := do
  let root := Path.ofText text
  let found ← Logged.silently ((system.isDirectory root).mapError .unreadable)
  unless found do throw (.notDirectory root)
  -- The files are listed before the first one is read.
  let files := system.sourceFiles root.text extension
  Logged.record Channel.files.name
    s!"Found {files.length} files with extension {extension} in {root.text}"
  return (← files.mapM system.parseMember).flatten

/-- The files that a path stands for: a directory stands for those with an extension below it. -/
def filesAt (system : FileSystem) (extension : Option String) (path : Path) :
    Except LoadFault (List Path) :=
  match system.isDirectory path, extension with
  | .error fault, _ => .error (.unreadable fault)
  | .ok false, _ => .ok [path]
  | .ok true, some extension => .ok (system.sourceFiles path.text extension)
  | .ok true, none => .error .noExtension

/-- The files that paths stand for, in order. -/
def collectFiles (system : FileSystem) (paths : List Path) (extension : Option String) :
    Except LoadFault (List Path) := do
  return (← paths.mapM (system.filesAt extension)).flatten

/-- The forest of a file, with or without its comments. -/
def checkFile (system : FileSystem) (path : Path) (keepComments : Bool) :
    Logged LoadFault (List Node) := do
  let source ← Logged.silently (system.readSource path.text)
  reading (Logged.parseText source path.text (!keepComments))

end FileSystem

end Sexpr
