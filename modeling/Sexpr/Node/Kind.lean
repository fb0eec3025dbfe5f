/-! The variants of nodes. -/

namespace Sexpr

/-- The variants of nodes. -/
inductive NodeKind where
  | bool
  | comment
  | identifier
  | list
  | number
  | string
deriving DecidableEq, Repr

namespace NodeKind

/-- The variants in the order of their declaration. -/
def all : List NodeKind := [bool, comment, identifier, list, number, string]

/-- The word for a variant. -/
def text : NodeKind → String
  | bool => "bool"
  | comment => "comment"
  | identifier => "identifier"
  | list => "list"
  | number => "number"
  | string => "string"

/-- The name that a variant is declared by. -/
def label : NodeKind → String
  | bool => "BOOL"
  | comment => "COMMENT"
  | identifier => "IDENTIFIER"
  | list => "LIST"
  | number => "NUMBER"
  | string => "STRING"

end NodeKind

end Sexpr
