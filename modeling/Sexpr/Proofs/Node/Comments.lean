import Sexpr.Node.Forest

/-! Stripping comments leaves bare trees, and bare trees are what it leaves alone. -/

namespace Sexpr

/-- Induction on nodes: what holds of a list may be shown from all of its children. -/
@[elab_as_elim, induction_eliminator]
theorem Node.ind {motive : Node → Prop}
    (atom : ∀ value tokens, motive (.atom value tokens))
    (list : ∀ children tokens, (∀ child ∈ children, motive child) → motive (.list children tokens)) :
    ∀ node, motive node
  | .atom value tokens => atom value tokens
  | .list children tokens => list children tokens fun child _ => Node.ind atom list child

/-- A node that holds no comment at any depth. -/
inductive Node.Bare : Node → Prop
  | atom {value : Atom} {tokens : List Token} (notComment : value.tokenKind ≠ .comment) :
      Node.Bare (.atom value tokens)
  | list {children : List Node} {tokens : List Token} (all : ∀ child ∈ children, child.Bare) :
      Node.Bare (.list children tokens)

/-- Stripping keeps of each node what is left without its comments, in order. -/
theorem stripComments_eq_filterMap (nodes : List Node) :
    stripComments nodes = nodes.filterMap Node.withoutComments := by
  induction nodes with
  | nil => rfl
  | cons node nodes ih =>
    rw [stripComments, List.filterMap_cons]
    -- A node that is itself a comment leaves nothing in either form.
    cases node.withoutComments with
    | none => exact ih
    | some kept => exact congrArg (kept :: ·) ih

/-- What stripping keeps comes from a node that is no comment. -/
theorem mem_stripComments {nodes : List Node} {kept : Node} :
    kept ∈ stripComments nodes ↔ ∃ node ∈ nodes, node.withoutComments = some kept := by
  rw [stripComments_eq_filterMap, List.mem_filterMap]

/-- An atom is left alone unless it is a comment. -/
theorem Node.withoutComments_atom (value : Atom) (tokens : List Token) :
    (Node.atom value tokens).withoutComments =
      if value.tokenKind = .comment then none else some (.atom value tokens) := by
  -- Of the variants only one is a comment.
  cases value <;> rfl

/-- What is left of a node without its comments holds none. -/
theorem Node.bare_of_withoutComments (node : Node) :
    ∀ kept, node.withoutComments = some kept → kept.Bare := by
  -- By induction every child that is left is bare.
  induction node with
  | atom value tokens =>
    intro kept left
    rw [withoutComments_atom] at left
    split at left
    · -- Of a comment nothing is left.
      cases left
    · rename_i notComment
      cases left
      exact .atom notComment
  | list children tokens ih =>
    intro kept left
    -- A list keeps its place, and each child that is left is bare by hypothesis.
    rw [withoutComments] at left
    cases left
    apply Bare.list
    intro child member
    obtain ⟨node, inside, left⟩ := mem_stripComments.mp member
    exact ih node inside child left

/-- Bare nodes are all that is left of a forest without its comments. -/
theorem bare_of_mem_stripComments {nodes : List Node} :
    ∀ kept ∈ stripComments nodes, kept.Bare := by
  -- What is left of the row is what is left of one of its nodes.
  intro kept member
  obtain ⟨node, -, left⟩ := mem_stripComments.mp member
  exact node.bare_of_withoutComments kept left

/-- Stripping leaves a forest alone if that is so of each of its nodes. -/
theorem stripComments_eq_self {nodes : List Node}
    (each : ∀ node ∈ nodes, node.withoutComments = some node) : stripComments nodes = nodes := by
  induction nodes with
  | nil => rfl
  | cons node nodes ih =>
    -- The first node is kept as it is, and so are the others.
    have others := ih fun other member => each other (List.mem_cons_of_mem node member)
    rw [stripComments, each node List.mem_cons_self]
    exact congrArg (node :: ·) others

/-- A bare node is left alone. -/
theorem Node.Bare.withoutComments {node : Node} (bare : node.Bare) :
    node.withoutComments = some node := by
  -- The induction is on what makes the node bare, so every child is kept as it is.
  induction bare with
  | atom notComment => rw [withoutComments_atom, if_neg notComment]
  | list _ ih => rw [Node.withoutComments, stripComments_eq_self ih]

/-- A forest of bare nodes is left alone. -/
theorem stripComments_of_bare {nodes : List Node} (bare : ∀ node ∈ nodes, node.Bare) :
    stripComments nodes = nodes :=
  stripComments_eq_self fun node member => (bare node member).withoutComments

end Sexpr
