import Sexpr.Proofs.Node.Tokens

/-! Forests of tokens that have been moved: they are the same forests with all their positions moved. -/

namespace Sexpr

mutual

/-- A node whose tokens have all been moved. -/
def Node.relocate (move : Location → Location) : Node → Node
  | .atom value tokens => .atom value (tokens.map (Token.relocate move))
  | .list children tokens => .list (relocateAll move children) (tokens.map (Token.relocate move))

/-- A row of nodes whose tokens have all been moved. -/
def relocateAll (move : Location → Location) : List Node → List Node
  | [] => []
  | node :: nodes => node.relocate move :: relocateAll move nodes

end

variable (move : Location → Location)

/-- A row is moved node by node. -/
theorem relocateAll_eq_map (nodes : List Node) :
    relocateAll move nodes = nodes.map (Node.relocate move) := by
  induction nodes with
  | nil => rfl
  | cons node nodes ih => rw [relocateAll, ih, List.map_cons]

/-- A token that has been moved means what it meant. -/
theorem Token.keeps_relocate : Token.Keeps (Token.relocate move) move where
  lexeme _ := rfl
  location _ := rfl

/-- A node is moved by moving its tokens. -/
theorem Node.relocate_eq_mapTokens :
    Node.relocate move = Node.mapTokens (Token.relocate move) := by
  -- The induction is on the node, whose tokens are moved one by one.
  funext node
  induction node with
  | atom value tokens => rfl
  | list children tokens ih =>
    rw [Node.relocate, relocateAll_eq_map, Node.mapTokens_list, List.map_congr_left ih]

/-- Tokens that have been moved are parsed as the forest of the tokens, moved in the same way, and where
that fails with the same error. -/
theorem parse_relocate (tokens : List Token) : parse (tokens.map (Token.relocate move)) =
    ((parse tokens).map (List.map (Node.relocate move))).mapError (Error.relocate move) := by
  -- Moving is a change of tokens that keeps what the parser looks at.
  rw [Node.relocate_eq_mapTokens]
  exact parse_mapTokens (Token.keeps_relocate move) tokens

/-- Stripping comments does not depend on positions. -/
theorem stripComments_relocate (nodes : List Node) :
    stripComments (nodes.map (Node.relocate move)) =
      (stripComments nodes).map (Node.relocate move) := by
  -- Moving is a change of tokens, and stripping does not look at them.
  rw [Node.relocate_eq_mapTokens]
  exact stripComments_mapTokens _ nodes

end Sexpr
