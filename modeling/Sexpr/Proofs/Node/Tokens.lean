import Sexpr.Proofs.Node.Agreement
import Sexpr.Proofs.Token.Locations

/-! Forests of tokens that have been changed: as long as these mean what they meant, they make up the same
forests, and fail to for the same reasons. -/

namespace Sexpr

mutual

/-- A node whose tokens have all been changed. -/
def Node.mapTokens (change : Token → Token) : Node → Node
  | .atom value tokens => .atom value (tokens.map change)
  | .list children tokens => .list (mapTokensAll change children) (tokens.map change)

/-- A row of nodes whose tokens have all been changed. -/
def mapTokensAll (change : Token → Token) : List Node → List Node
  | [] => []
  | node :: nodes => node.mapTokens change :: mapTokensAll change nodes

end

/-- A change that leaves tokens with their meaning and moves their positions in a given way. -/
structure Token.Keeps (change : Token → Token) (move : Location → Location) : Prop where
  lexeme : ∀ token, (change token).lexeme = token.lexeme
  location : ∀ token, (change token).location = move token.location

variable {change : Token → Token} {move : Location → Location}

/-- A row is changed node by node. -/
theorem mapTokensAll_eq_map (change : Token → Token) (nodes : List Node) :
    mapTokensAll change nodes = nodes.map (Node.mapTokens change) := by
  induction nodes with
  | nil => rfl
  | cons node nodes ih => rw [mapTokensAll, ih, List.map_cons]

/-- A list is changed with its children. -/
theorem Node.mapTokens_list (change : Token → Token) (children : List Node) (tokens : List Token) :
    (Node.list children tokens).mapTokens change =
      .list (children.map (Node.mapTokens change)) (tokens.map change) := by
  rw [Node.mapTokens, mapTokensAll_eq_map]

/-- The text of a node does not depend on tokens. -/
theorem Node.text_mapTokens (change : Token → Token) (node : Node) :
    (node.mapTokens change).text = node.text := by
  -- The induction is on the node, as no text is made from tokens.
  induction node with
  | atom value tokens => rfl
  | list children tokens ih =>
    have same : spaced (children.map (Node.mapTokens change)) = spaced children := by
      apply spaced_congr
      rw [List.forall₂_map_left_iff, List.forall₂_same]
      exact ih
    rw [mapTokens_list, text, text, same]

namespace Growth

/-- A growing forest whose tokens have all been changed. -/
def mapTokens (change : Token → Token) (growth : Growth) : Growth where
  nodes := growth.nodes.map (Node.mapTokens change)
  enclosing := growth.enclosing.map fun opened =>
    { token := change opened.token, before := opened.before.map (Node.mapTokens change) }

/-- A token that means what it meant is taken in, or refused, as it was before. -/
theorem push_mapTokens (keeps : Token.Keeps change move) (growth : Growth) (token : Token) :
    (growth.mapTokens change).push (change token) =
      ((growth.push token).map (mapTokens change)).mapError (Error.relocate move) := by
  -- The lexeme, which is kept, decides what becomes of the token.
  have same := keeps.lexeme token
  cases means : token.lexeme with
  | listOpen =>
    simp [push, mapTokens, same, means, Except.map, Except.mapError]
  | atom value =>
    simp [push, mapTokens, same, means, Except.map, Except.mapError, Node.mapTokens]
  | listClose =>
    cases nested : growth.enclosing with
    | nil =>
      simp [push, mapTokens, same, means, nested, Except.map, Except.mapError, Error.relocate,
        keeps.location]
    | cons opened enclosing =>
      simp [push, mapTokens, same, means, nested, Except.map, Except.mapError, Node.mapTokens_list]

/-- A row of tokens that mean what they meant is taken in, or refused, as it was before. -/
theorem foldlM_mapTokens (keeps : Token.Keeps change move) (tokens : List Token) (growth : Growth) :
    (tokens.map change).foldlM push (growth.mapTokens change) =
      ((tokens.foldlM push growth).map (mapTokens change)).mapError (Error.relocate move) := by
  -- The induction is on the tokens, with the growth left open.
  induction tokens generalizing growth with
  | nil => rfl
  | cons token tokens ih =>
    rw [List.map_cons, List.foldlM_cons, List.foldlM_cons, push_mapTokens keeps]
    cases growth.push token with
    | error error => rfl
    | ok next => exact ih next

/-- A forest of tokens that mean what they meant is finished, or refused, as it was before. -/
theorem finish_mapTokens (keeps : Token.Keeps change move) (growth : Growth) :
    (growth.mapTokens change).finish =
      (growth.finish.map (List.map (Node.mapTokens change))).mapError (Error.relocate move) := by
  -- The error at the end takes its location from the token of the list that is open.
  cases outermost : growth.enclosing with
  | nil => simp [finish, mapTokens, outermost, Except.map, Except.mapError]
  | cons opened enclosing =>
    simp [finish, mapTokens, outermost, Except.map, Except.mapError, keeps.location, Error.relocate]

end Growth

/-- Tokens that mean what they meant are parsed as the forest that they made up, with its tokens changed,
and where that fails with the same error, moved as they are. -/
theorem parse_mapTokens (keeps : Token.Keeps change move) (tokens : List Token) :
    parse (tokens.map change) =
      ((parse tokens).map (List.map (Node.mapTokens change))).mapError (Error.relocate move) := by
  -- Nothing is taken in at the start, so there is nothing to change there.
  have start : Growth.mapTokens change {} = {} := rfl
  have grown := Growth.foldlM_mapTokens keeps tokens {}
  rw [start] at grown
  rw [parse, parse, grown]
  cases tokens.foldlM Growth.push {} with
  | error error => rfl
  | ok final => exact final.finish_mapTokens keeps

/-- Stripping comments does not depend on tokens, if that is so of each of the nodes. -/
theorem stripComments_mapTokens_of_each (change : Token → Token) {nodes : List Node}
    (each : ∀ node ∈ nodes,
      (node.mapTokens change).withoutComments = node.withoutComments.map (Node.mapTokens change)) :
    stripComments (nodes.map (Node.mapTokens change)) =
      (stripComments nodes).map (Node.mapTokens change) := by
  -- Both sides are filters over the nodes, so they agree if they do for each.
  rw [stripComments_eq_filterMap, stripComments_eq_filterMap, List.filterMap_map, List.map_filterMap]
  exact List.filterMap_congr each

/-- What is left of a node without its comments does not depend on tokens. -/
theorem Node.withoutComments_mapTokens (change : Token → Token) (node : Node) :
    (node.mapTokens change).withoutComments = node.withoutComments.map (Node.mapTokens change) := by
  -- The induction is on the node, as no comment is told by its tokens.
  induction node with
  | atom value tokens =>
    rw [Node.mapTokens, withoutComments_atom, withoutComments_atom]
    split <;> rfl
  | list children tokens ih =>
    -- The list keeps its ends, and the children that are left are the same, each of them changed.
    rw [Node.mapTokens_list, withoutComments, withoutComments,
      stripComments_mapTokens_of_each change ih, Option.map_some, Node.mapTokens_list]

/-- Stripping comments does not depend on tokens. -/
theorem stripComments_mapTokens (change : Token → Token) (nodes : List Node) :
    stripComments (nodes.map (Node.mapTokens change)) =
      (stripComments nodes).map (Node.mapTokens change) :=
  stripComments_mapTokens_of_each change fun node _ => node.withoutComments_mapTokens change

end Sexpr
