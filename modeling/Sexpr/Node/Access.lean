import Sexpr.Node.Basic

/-! Looking into nodes: children by position, and values by type. -/

namespace Sexpr.Node

/-- The error for a node of another variant than expected. -/
def mismatch (node : Node) (expected : NodeKind) : Error where
  cause := .access .invalidType (some (.nodeKind expected)) (some (.nodeKind node.kind))
  location := node.location

/-- The child at a position; a negative one counts from the end. -/
def child (node : Node) (position : Int) : Except Error Node :=
  match node.children? with
  | none => .error (node.mismatch .list)
  | some children =>
    -- A position from the end may still lie before the first child.
    let index := if position < 0 then position + children.length else position
    match if index < 0 then none else children[index.toNat]? with
    | some child => .ok child
    | none => .error
        { cause := .access .lengthMismatch none none (some
            s!"Cannot get child ({position}), this list only has {children.length} children.")
          location := node.location }

/-- The value that a view finds in a node, which has to be of the view's variant. -/
def valueAs {α : Type} (node : Node) (kind : NodeKind) (view : Atom → Option α) : Except Error α :=
  match node.atom?.bind view with
  | some value => .ok value
  | none => .error (node.mismatch kind)

/-- The truth value of a node. -/
def asBool (node : Node) : Except Error Bool := node.valueAs .bool Atom.bool?

/-- The text of a comment. -/
def asComment (node : Node) : Except Error String := node.valueAs .comment Atom.comment?

/-- The name of an identifier. -/
def asIdentifier (node : Node) : Except Error String := node.valueAs .identifier Atom.identifier?

/-- The value of a number. -/
def asNumber (node : Node) : Except Error Binary64 := node.valueAs .number Atom.number?

/-- The contents of a string. -/
def asString (node : Node) : Except Error String := node.valueAs .string Atom.string?

/-- The children of a list. -/
def asList (node : Node) : Except Error (List Node) :=
  match node.children? with
  | some children => .ok children
  | none => .error (node.mismatch .list)

/-- Refuses a node that is not a list with exactly as many children. -/
def assertLength (node : Node) (count : Int) : Except Error Unit :=
  match node.children? with
  | none => .error (node.mismatch .list)
  | some children =>
    -- The expected number comes from outside and may even be negative.
    if (children.length : Int) = count then .ok ()
    else .error
      { cause := .access .lengthMismatch (some (.count count)) (some (.count children.length))
        location := node.location }

/-- Whether a number has no fractional part; other nodes have no answer. -/
def isInteger? (node : Node) : Option Bool :=
  (node.atom?.bind Atom.number?).map Binary64.isIntegral

end Sexpr.Node
