import Sexpr.Error

/-! Nodes: trees of atoms and lists that keep the tokens they were read from. -/

namespace Sexpr

/-- A tree. An atom keeps its token, and a list the tokens at its two ends; a built node keeps none. -/
inductive Node where
  | atom (value : Atom) (tokens : List Token := [])
  | list (children : List Node) (tokens : List Token := [])
deriving Inhabited

/-- The variant of an atom. -/
def Atom.nodeKind : Atom → NodeKind
  | .bool _ => .bool
  | .number _ => .number
  | .string _ => .string
  | .identifier _ => .identifier
  | .comment _ => .comment

namespace Atom

/-- The truth value of an atom, if it is one. -/
def bool? : Atom → Option Bool
  | bool value => some value
  | _ => none

/-- The value of a number. -/
def number? : Atom → Option Binary64
  | number value => some value
  | _ => none

/-- The contents of a string. -/
def string? : Atom → Option String
  | string contents => some contents
  | _ => none

/-- The name of an identifier. -/
def identifier? : Atom → Option String
  | identifier name => some name
  | _ => none

/-- The text of a comment. -/
def comment? : Atom → Option String
  | comment contents => some contents
  | _ => none

end Atom

namespace Node

/-- The variant of a node. -/
def kind : Node → NodeKind
  | atom value _ => value.nodeKind
  | list .. => .list

/-- The tokens that a node was read from. -/
def tokens : Node → List Token
  | atom _ tokens | list _ tokens => tokens

/-- The position of a node's first token; a built node is at the start. -/
def location (node : Node) : Location :=
  (node.tokens.head?.map Token.location).getD {}

/-- The value of an atom. -/
def atom? : Node → Option Atom
  | atom value _ => some value
  | list .. => none

/-- The children of a list. -/
def children? : Node → Option (List Node)
  | atom .. => none
  | list children _ => some children

/-- How many children a node has; an atom has none. -/
def length (node : Node) : Nat := (node.children?.getD []).length

/-- Whether a node has a variant. -/
def is (node : Node) (kind : NodeKind) : Bool := node.kind == kind

/-- Whether a node is not a list. -/
def isAtom (node : Node) : Bool := !node.is .list

mutual

/-- Whether two nodes have the same shape and values, whatever tokens they keep.

Numbers are compared as numbers. -/
def agrees : Node → Node → Bool
  | atom (.number value) _, atom (.number other) _ => value.agrees other
  | atom value _, atom other _ => value == other
  | list children _, list others _ => allAgree children others
  | _, _ => false

/-- Whether two rows of nodes agree one by one. -/
def allAgree : List Node → List Node → Bool
  | [], [] => true
  | node :: nodes, other :: others => node.agrees other && allAgree nodes others
  | _, _ => false

end

mutual

/-- Whether two nodes agree or are the same node, which is so even where not-a-number occurs. -/
def coincides : Node → Node → Bool
  | atom value tokens, atom other otherTokens =>
    (value == other && tokens == otherTokens) ||
      (atom value tokens).agrees (atom other otherTokens)
  | list children _, list others _ => allCoincide children others
  | _, _ => false

/-- Whether two rows of nodes coincide one by one. -/
def allCoincide : List Node → List Node → Bool
  | [], [] => true
  | node :: nodes, other :: others => node.coincides other && allCoincide nodes others
  | _, _ => false

end

end Node

end Sexpr
