import Sexpr.Node.Basic

/-! Forests from tokens: list ends are matched with a stack of open lists. -/

namespace Sexpr

/-- The node of an atomic token. -/
def Node.ofToken (token : Token) : Except Error Node :=
  match token.lexeme with
  | .atom value => .ok (.atom value [token])
  | _ => .error
      { cause := .lexical .wrongType
          { expected := some (.text "atom"), got := some (.tokenKind token.kind) }
        location := token.location }

/-- A list that is open: its first token, and the nodes before it, newest first. -/
structure OpenList where
  token : Token
  before : List Node

/-- A forest under construction: the nodes of the innermost list, newest first, and the open lists. -/
structure Growth where
  nodes : List Node := []
  enclosing : List OpenList := []

namespace Growth

/-- Takes in one more token. -/
def push (growth : Growth) (token : Token) : Except Error Growth :=
  match token.lexeme with
  -- What stands before the list is set aside until the list is closed.
  | .listOpen => .ok ⟨[], ⟨token, growth.nodes⟩ :: growth.enclosing⟩
  | .listClose =>
    -- The nodes were gathered newest first, and the list has them in source order.
    match growth.enclosing with
    | [] => .error ⟨.structural .unstartedList, token.location⟩
    | opened :: enclosing =>
      .ok ⟨.list growth.nodes.reverse [opened.token, token] :: opened.before, enclosing⟩
  | .atom value => .ok { growth with nodes := .atom value [token] :: growth.nodes }

/-- The finished forest, unless a list is still open. -/
def finish (growth : Growth) : Except Error (List Node) :=
  match growth.enclosing with
  | [] => .ok growth.nodes.reverse
  -- The innermost list that is open is the one to blame.
  | opened :: _ => .error ⟨.structural .unclosedList, opened.token.location⟩

end Growth

/-- The forest that tokens spell, in source order. -/
def parse (tokens : List Token) : Except Error (List Node) := do
  (← tokens.foldlM Growth.push {}).finish

mutual

/-- A node without the comments in it; a comment leaves nothing. -/
def Node.withoutComments : Node → Option Node
  | .atom (.comment _) _ => none
  | .atom value tokens => some (.atom value tokens)
  -- A list stays even if all its children were comments.
  | .list children tokens => some (.list (stripComments children) tokens)

/-- A forest without the comments in it. -/
def stripComments : List Node → List Node
  | [] => []
  | node :: nodes =>
    match node.withoutComments with
    | some kept => kept :: stripComments nodes
    | none => stripComments nodes

end

end Sexpr
