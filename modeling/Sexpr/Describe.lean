import Sexpr.Cursor
import Sexpr.Text.Quoted

/-! Descriptions for the programmer: the kind of a value with its text in quotes. -/

namespace Sexpr

/-- A path within a description. -/
def Path.describe (path : Path) : String := "PosixPath(" ++ quoted path.text ++ ")"

/-- A position with all its parts. -/
def Location.describe (location : Location) : String :=
  let path := (location.path.map Path.describe).getD "None"
  s!"Location(line={location.line}, column={location.column}, path={path})"

/-- A position as a cursor over characters shows itself. -/
def Location.describeCursor (location : Location) : String :=
  "LocationCursor(" ++ location.text ++ ")"

/-- The name of a variant in descriptions. -/
def NodeKind.description : NodeKind → String
  | .bool => "SexpBool"
  | .comment => "SexpComment"
  | .identifier => "SexpIdentifier"
  | .list => "SexpList"
  | .number => "SexpNumber"
  | .string => "SexpString"

/-- A node with its variant. -/
def Node.describe (node : Node) : String := node.kind.description ++ "(" ++ quoted node.text ++ ")"

/-- A cursor with its position. -/
def Cursor.describe (cursor : Cursor) : String :=
  "SexpCursor(" ++ quoted cursor.text ++ ", " ++ cursor.anchor.describe ++ ")"

/-- The name of a sort of cause. -/
def Cause.description : Cause → String
  | .general .. => "SexpError"
  | .lexical .. => "TokenizerError"
  | .structural .. => "ParserError"
  | .access .. => "NodeError"
  | .cursor .. => "CursorError"

/-- An error with its sort, words and position. -/
def Error.describe (error : Error) : String :=
  error.cause.description ++ "(" ++ quoted error.message ++ ", " ++ error.location.describe ++ ")"

end Sexpr
