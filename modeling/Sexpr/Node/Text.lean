import Sexpr.Node.Basic

/-! The text of nodes. -/

namespace Sexpr

/-- The text of an atom. A comment brings the line feed that ends it. -/
def Atom.text : Atom → String
  | .bool true => "true"
  | .bool false => "false"
  | .number value => value.text
  | .string contents => "\"" ++ contents ++ "\""
  | .identifier name => name
  | .comment contents => ";" ++ contents ++ "\n"

namespace Node

mutual

/-- The text of a node: the children of a list stand in parentheses, one space apart. -/
def text : Node → String
  | atom value _ => value.text
  | list children _ => "(" ++ spaced children ++ ")"

/-- The texts of nodes, one space apart. -/
def spaced : List Node → String
  | [] => ""
  | [node] => node.text
  | node :: nodes => node.text ++ " " ++ spaced nodes

end

end Node

end Sexpr
