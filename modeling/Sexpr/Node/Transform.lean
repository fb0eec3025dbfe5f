import Sexpr.Node.Basic

/-! Transforming a tree: one walk that can drop and replace nodes before and after their children. -/

namespace Sexpr

/-- Whether a walk goes on to the children of a node. -/
inductive Descent where
  | descend
  | stop
deriving DecidableEq, Repr

/-- What to do with a node before its children are visited. -/
inductive Visit where
  | drop
  | keep (descent : Descent)
  | replace (node : Node) (descent : Descent)

namespace Node

variable {m : Type → Type} [Monad m]

mutual

/-- Walks over a node.

`before` sees each node on the way down, `after` sees it with its new children on the way up, and
`inside` walks over the children of a list that took the place of another. -/
def transformWith (inside : List Node → m (List Node)) (before : Node → m Visit)
    (after : Node → m (Option Node)) : Node → m (Option Node)
  | atom value tokens => do
    match ← before (atom value tokens) with
    | .drop => return none
    | .keep _ => after (atom value tokens)
    | .replace other _ => after other
  | list children tokens => do
    match ← before (list children tokens) with
    | .drop => return none
    | .keep .descend =>
      let kept ← transformAllWith inside before after children
      after (list kept tokens)
    | .keep .stop => after (list children tokens)
    -- The tree does not bound the children of a replacement, so another walk takes them.
    | .replace (list others ends) .descend =>
      let kept ← inside others
      after (list kept ends)
    | .replace other _ => after other

/-- Walks over nodes in order and keeps those that are not dropped. -/
def transformAllWith (inside : List Node → m (List Node)) (before : Node → m Visit)
    (after : Node → m (Option Node)) : List Node → m (List Node)
  | [] => return []
  | node :: nodes => do
    match ← transformWith inside before after node with
    | none => transformAllWith inside before after nodes
    | some kept =>
      let others ← transformAllWith inside before after nodes
      return kept :: others

end

/-- Walks over the children of replacements, as long as replacements nest no deeper than the limit. -/
def transformInside (before : Node → m Visit) (after : Node → m (Option Node)) :
    Nat → List Node → m (List Node)
  | 0, nodes => return nodes
  | limit + 1, nodes => transformAllWith (transformInside before after limit) before after nodes

/-- Transforms a node. A list that replaces another is walked too, unless `before` stops there.

Such replacements can go on for ever, so `limit` says how deep they may nest. -/
def transform (limit : Nat) (before : Node → m Visit) (after : Node → m (Option Node)) (node : Node) :
    m (Option Node) :=
  transformWith (transformInside before after limit) before after node

end Node

end Sexpr
