import Sexpr.Proofs.Node.Stripping

/-! Walks without effects. Rewriting the atoms of a tree twice is rewriting them once, and every list stays where
it is with its own tokens. -/

namespace Sexpr

/-- An atom with the tokens that it was read from. -/
abbrev Leaf := Atom × List Token

/-- What is met on the way along a tree: an atom, or one end of a list with the tokens of the list. -/
inductive Part where
  | leaf (value : Leaf)
  | opened (tokens : List Token)
  | closed (tokens : List Token)
deriving DecidableEq

namespace Part

/-- A function of atoms as one of parts, which leaves the ends of lists as they are. -/
def onLeaves (f : Leaf → Option Leaf) : Part → Option Part
  | leaf value => (f value).map leaf
  | opened tokens => some (opened tokens)
  | closed tokens => some (closed tokens)

/-- The atom that a part is. -/
def leaf? : Part → Option Leaf
  | leaf value => some value
  | opened _ | closed _ => none

/-- The tokens and the position of the list that a part opens. -/
def list? : Part → Option (List Token × Location)
  | opened tokens => some (tokens, (Node.list [] tokens).location)
  | leaf _ | closed _ => none

end Part

namespace Node

mutual

/-- The parts of a tree from left to right. A list has its children between its two ends. -/
def outline : Node → List Part
  | atom value tokens => [.leaf (value, tokens)]
  | list children tokens => .opened tokens :: (outlineAll children ++ [.closed tokens])

/-- The parts of a row of nodes. -/
def outlineAll : List Node → List Part
  | [] => []
  | node :: nodes => node.outline ++ outlineAll nodes

end

/-- The atoms of a tree from left to right. -/
def leaves (node : Node) : List Leaf := node.outline.filterMap Part.leaf?

/-- The lists of a tree, each one before those inside it. -/
def lists (node : Node) : List (List Token × Location) := node.outline.filterMap Part.list?

/-- A function of atoms as one of nodes, which leaves lists as they are. -/
def onLeaves (f : Leaf → Option Leaf) : Node → Option Node
  | atom value tokens => (f (value, tokens)).map fun kept => atom kept.1 kept.2
  | list children tokens => some (list children tokens)

/-- A walk without effects that goes everywhere and has something to do on the way up only. -/
def rewrite (limit : Nat) (after : Node → Option Node) (node : Node) : Option Node :=
  transform (m := Id) limit (fun _ => .keep .descend) after node

/-- The parts of a row are those of its nodes. -/
theorem outlineAll_eq_flatMap (nodes : List Node) : outlineAll nodes = nodes.flatMap outline := by
  induction nodes with
  | nil => rfl
  | cons node nodes ih => rw [outlineAll, ih, List.flatMap_cons]

variable (limit : Nat) (after : Node → Option Node) (f g : Leaf → Option Leaf)

/-- An atom is only handed to the call on the way up. -/
theorem rewrite_atom (value : Atom) (tokens : List Token) :
    rewrite limit after (atom value tokens) = after (atom value tokens) := rfl

/-- A list is rewritten with what is left of its children. -/
theorem rewrite_list (children : List Node) (tokens : List Token) :
    rewrite limit after (list children tokens) =
      after (list (children.filterMap (rewrite limit after)) tokens) := by
  -- The walk enters every list, and its row is what is left of the children.
  change after (list (transformAllWith (m := Id) _ _ _ children) tokens) = _
  rw [transformAllWith_eq_filterMap]
  rfl

theorem onLeaves_list (children : List Node) (tokens : List Token) :
    onLeaves f (list children tokens) = some (list children tokens) := rfl

/-- What two functions of atoms do to nodes one after the other, their composition does at once. -/
theorem onLeaves_bind (node : Node) : (onLeaves f node).bind (onLeaves g) =
    onLeaves (fun leaf => (f leaf).bind g) node := by
  -- A list passes through both changes, and an atom through the two functions.
  cases node with
  | list children tokens => rfl
  | atom value tokens =>
    simp only [onLeaves]
    cases f (value, tokens) <;> rfl

/-- Rewriting a row of nodes changes its parts one by one, if that is so of each node. -/
theorem flatMap_outline_filterMap {nodes : List Node} {change : Node → Option Node}
    (each : ∀ node ∈ nodes, (change node).toList.flatMap outline =
      node.outline.filterMap (Part.onLeaves f)) :
    (nodes.filterMap change).flatMap outline =
      (nodes.flatMap outline).filterMap (Part.onLeaves f) := by
  -- Both sides run over the nodes, so they agree if they do for each.
  rw [List.filterMap_eq_flatMap_toList, List.flatMap_assoc, List.filterMap_flatMap]
  exact List.flatMap_congr each

/-- Rewriting the atoms of a tree changes its parts one by one: atoms are replaced or left out, and the ends of
lists stay. -/
theorem outline_rewrite (node : Node) : (rewrite limit (onLeaves f) node).toList.flatMap outline =
    node.outline.filterMap (Part.onLeaves f) := by
  -- By induction the parts of a child are those that the change leaves of it.
  induction node with
  | atom value tokens =>
    rw [rewrite_atom, outline, List.filterMap_cons, List.filterMap_nil]
    simp only [onLeaves, Part.onLeaves]
    cases f (value, tokens) <;> rfl
  | list children tokens ih =>
    -- Between its two ends, which stay, a list has the parts of its children.
    rw [rewrite_list, onLeaves_list]
    simp only [Option.toList_some, List.flatMap_cons, List.flatMap_nil, List.append_nil,
      outline, outlineAll_eq_flatMap, flatMap_outline_filterMap f ih, List.filterMap_cons,
      List.filterMap_append, List.filterMap_nil, Part.onLeaves]

/-- Atoms that are left come from the atoms of the tree, in order. -/
theorem filterMap_leaf? (parts : List Part) :
    (parts.filterMap (Part.onLeaves f)).filterMap Part.leaf? =
      (parts.filterMap Part.leaf?).filterMap f := by
  -- The case is the part, and ends of lists are no leaves before or after.
  rw [List.filterMap_filterMap, List.filterMap_filterMap]
  congr 1
  funext part
  cases part with
  | leaf value =>
    change ((f value).map Part.leaf).bind Part.leaf? = f value
    cases f value <;> rfl
  | opened tokens => rfl
  | closed tokens => rfl

/-- No list is left out. -/
theorem filterMap_list? (parts : List Part) :
    (parts.filterMap (Part.onLeaves f)).filterMap Part.list? = parts.filterMap Part.list? := by
  -- The case is the part, and a leaf is no end of a list before or after.
  rw [List.filterMap_filterMap]
  congr 1
  funext part
  cases part with
  | leaf value =>
    change ((f value).map Part.leaf).bind Part.list? = none
    cases f value <;> rfl
  | opened tokens => rfl
  | closed tokens => rfl

/-- Rewriting atoms by one function and what is left by another is rewriting them by both at once. -/
theorem rewrite_bind_rewrite (first second both : Nat) (node : Node) :
    (rewrite first (onLeaves f) node).bind (rewrite second (onLeaves g)) =
      rewrite both (fun node => (onLeaves f node).bind (onLeaves g)) node := by
  -- By induction a child goes through both walks as through the fused one.
  induction node with
  | atom value tokens =>
    rw [rewrite_atom, rewrite_atom]
    -- What is left of an atom is an atom.
    simp only [onLeaves]
    cases f (value, tokens) <;> rfl
  | list children tokens ih =>
    -- The second walk goes over the children that the first one left.
    rw [rewrite_list, onLeaves_list, Option.bind_some, rewrite_list, onLeaves_list,
      List.filterMap_filterMap, List.filterMap_congr ih, rewrite_list, onLeaves_list,
      Option.bind_some, onLeaves_list]

/-- Fusion of rewritings. Two walks that rewrite the atoms of a tree come to one walk with both functions, deleted
atoms included. What is left has all lists of the tree with their own tokens and positions, and between their
ends the atoms of the tree from left to right, changed by both functions and without those deleted. -/
theorem rewrite_fusion (first second both : Nat) (node : Node) :
    (rewrite first (onLeaves f) node).bind (rewrite second (onLeaves g)) =
      rewrite both (fun node => (onLeaves f node).bind (onLeaves g)) node ∧
    let left := (rewrite both (fun node => (onLeaves f node).bind (onLeaves g)) node).toList
    left.flatMap outline = node.outline.filterMap (Part.onLeaves fun leaf => (f leaf).bind g) ∧
    left.flatMap lists = node.lists ∧
    left.flatMap leaves = node.leaves.filterMap fun leaf => (f leaf).bind g := by
  -- The two functions on leaves make one, so each fact about one rewrite holds of both in turn.
  have same : (fun node => (onLeaves f node).bind (onLeaves g)) =
      onLeaves fun leaf => (f leaf).bind g := funext (onLeaves_bind f g)
  refine ⟨rewrite_bind_rewrite f g first second both node, ?_⟩
  rw [same]
  intro left
  have parts := outline_rewrite both (fun leaf => (f leaf).bind g) node
  refine ⟨parts, ?_, ?_⟩
  · -- Lists and atoms are picked from the parts.
    have picked := congrArg (List.filterMap Part.list?) parts
    rw [filterMap_list?, List.filterMap_flatMap] at picked
    exact picked
  · have picked := congrArg (List.filterMap Part.leaf?) parts
    rw [filterMap_leaf?, List.filterMap_flatMap] at picked
    exact picked

end Node

end Sexpr
