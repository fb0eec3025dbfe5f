/-! Paths in normal form: repeated and trailing slashes and single dots carry no meaning. -/

namespace Sexpr

/-- The pieces of a text between its slashes; a text without one is a single piece. -/
def slashPieces : List Char → List (List Char)
  | [] => [[]]
  | '/' :: rest => [] :: slashPieces rest
  | char :: rest =>
    match slashPieces rest with
    | piece :: pieces => (char :: piece) :: pieces
    | [] => [[char]]

/-- The names between the slashes of a text, empty ones included. -/
def slashNames (text : String) : List String :=
  (slashPieces text.toList).map String.ofList

/-- Where a path starts. Two leading slashes are kept apart from one. -/
inductive Anchor where
  | relative
  | root
  | doubleRoot
deriving DecidableEq, Repr

/-- The slashes that an anchor writes. -/
def Anchor.text : Anchor → String
  | .relative => ""
  | .root => "/"
  | .doubleRoot => "//"

/-- The anchor that a text opens with; three slashes or more count as one. -/
def Anchor.ofChars : List Char → Anchor
  | '/' :: '/' :: '/' :: _ => .root
  | '/' :: '/' :: _ => .doubleRoot
  | '/' :: _ => .root
  | _ => .relative

/-- A normalised path. -/
structure Path where
  anchor : Anchor
  names : List String
deriving DecidableEq, Repr

namespace Path

/-- The path that a text names. -/
def ofText (text : String) : Path where
  anchor := .ofChars text.toList
  names := (slashNames text).filter fun name => name != "" && name != "."

/-- The text of a path; the empty relative path is a single dot. -/
def text (path : Path) : String :=
  match path.anchor, path.names with
  | .relative, [] => "."
  | anchor, names => anchor.text ++ "/".intercalate names

/-- The path one name below. -/
def child (path : Path) (name : String) : Path := { path with names := path.names ++ [name] }

/-- The last name, or nothing. -/
def name (path : Path) : String := path.names.getLastD ""

end Path

/-- The part of a name from its last point on.

A name that opens or ends with its last point has no suffix. -/
def nameSuffix (name : String) : String :=
  let tail := name.toList.reverse.takeWhile (· != '.')
  if tail == [] || name.length ≤ tail.length + 1 then "" else String.ofList ('.' :: tail.reverse)

/-- The suffix of the last name. -/
def Path.suffix (path : Path) : String := nameSuffix path.name

end Sexpr
