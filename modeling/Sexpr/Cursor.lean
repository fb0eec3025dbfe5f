import Sexpr.Node.Text

/-! Cursors: the children of a list, taken from the front one at a time. -/

namespace Sexpr

/-- The nodes that are left of a list, and the position of the list. -/
structure Cursor where
  nodes : List Node := []
  anchor : Location := {}
  /-- Where the front node stands in the forest that the cursor came from: its place among its
  siblings first, then that of each node around it. -/
  place : List Nat := [0]

namespace Cursor

/-- The error for a missing value. -/
def missing (label : String) (location : Location) : Error :=
  ⟨.cursor ("Expected " ++ label), location⟩

/-- A cursor over the children of a list, the first of which stands at a place. -/
def ofNode (node : Node) (label : String) (place : List Nat := [0]) : Except Error Cursor :=
  match node.children? with
  | some children => .ok ⟨children, node.location, place⟩
  | none => .error (missing label node.location)

/-- The text of the nodes that are left, as a list. -/
def text (cursor : Cursor) : String := "(" ++ Node.spaced cursor.nodes ++ ")"

/-- Whether two cursors have the same nodes left, wherever they came from.

At the same place they are left with the very same nodes, where not-a-number does no harm. -/
def agrees (cursor other : Cursor) : Bool :=
  -- Equal places of one forest hold the same nodes, so nothing has to be compared by value.
  if cursor.place = other.place then Node.allCoincide cursor.nodes other.nodes
  else Node.allAgree cursor.nodes other.nodes

/-- The front node. -/
def front? (cursor : Cursor) : Option Node := cursor.nodes.head?

/-- Whether there is a front node and it is a list. -/
def frontIsList (cursor : Cursor) : Bool := cursor.front?.any (·.is .list)

/-- The place behind the front node. -/
def nextPlace : List Nat → List Nat
  | [] => []
  | position :: around => (position + 1) :: around

/-- The cursor behind the front node. -/
def rest (cursor : Cursor) : Cursor :=
  -- The anchor stays, as it belongs to the list and not to what is left of it.
  { cursor with nodes := cursor.nodes.tail, place := nextPlace cursor.place }

/-- The place of the first node within the front node. -/
def innerPlace (cursor : Cursor) : List Nat := 0 :: cursor.place

/-- What taking a value gives: the value, and the cursor behind it. -/
abbrev Taken (α : Type) := Except Error (α × Cursor)

/-- Takes the front node whatever it is. -/
def popFront (cursor : Cursor) (label : String) : Taken Node :=
  -- An empty cursor blames the list, as there is no node to blame.
  match cursor.nodes with
  | [] => .error (missing label cursor.anchor)
  | front :: _ => .ok (front, cursor.rest)

/-- Takes the front node if a view finds a value in it, which comes with its position. -/
def popAs {α : Type} (view : Node → Option α) (cursor : Cursor) (label : String) :
    Taken (α × Location) :=
  match cursor.nodes with
  | [] => .error (missing label cursor.anchor)
  | front :: _ =>
    -- A node of another variant stays in front, and the error is located at it.
    match view front with
    | some value => .ok ((value, front.location), cursor.rest)
    | none => .error (missing label front.location)

/-- Takes a truth value. -/
def popBool (cursor : Cursor) (label : String) : Taken (Bool × Location) :=
  cursor.popAs (fun node => node.atom?.bind Atom.bool?) label

/-- Takes a comment. -/
def popComment (cursor : Cursor) (label : String) : Taken (String × Location) :=
  cursor.popAs (fun node => node.atom?.bind Atom.comment?) label

/-- Takes a number. -/
def popNumber (cursor : Cursor) (label : String) : Taken (Binary64 × Location) :=
  cursor.popAs (fun node => node.atom?.bind Atom.number?) label

/-- Takes an identifier. -/
def popIdentifier (cursor : Cursor) (label : String) : Taken (String × Location) :=
  cursor.popAs (fun node => node.atom?.bind Atom.identifier?) label

/-- Takes a string. -/
def popString (cursor : Cursor) (label : String) : Taken (String × Location) :=
  cursor.popAs (fun node => node.atom?.bind Atom.string?) label

/-- Takes a number that equals an integer. -/
def popInteger (cursor : Cursor) (label : String) : Taken (Int × Location) :=
  match cursor.popNumber label with
  | .error error => .error error
  | .ok ((number, location), rest) =>
    -- A refusal gives no new cursor, so nothing has been taken.
    match number.toInt? with
    | some value => .ok ((value, location), rest)
    | none => .error ⟨.cursor ("Expected an int for " ++ label), location⟩

/-- Takes a list and opens a cursor over it. -/
def popList (cursor : Cursor) (label : String) : Taken Cursor :=
  match cursor.popAs Node.children? label with
  | .error error => .error error
  | .ok ((children, location), rest) => .ok (⟨children, location, cursor.innerPlace⟩, rest)

/-- Takes a value only if the front node passes a test, and otherwise takes nothing. -/
def maybe {α : Type} (matching : Node → Bool) (pop : Cursor → String → Taken α) (cursor : Cursor)
    (label : String) : Except Error (Option α × Cursor) :=
  -- The test comes first, so that only a matching node can make the pop fail.
  if cursor.front?.any matching then (pop cursor label).map fun (value, rest) => (some value, rest)
  else .ok (none, cursor)

/-- Takes a truth value if one is in front. -/
def maybePopBool := maybe (·.is .bool) popBool

/-- Takes a comment if one is in front. -/
def maybePopComment := maybe (·.is .comment) popComment

/-- Takes a number if one is in front. -/
def maybePopNumber := maybe (·.is .number) popNumber

/-- Takes an identifier if one is in front. -/
def maybePopIdentifier := maybe (·.is .identifier) popIdentifier

/-- Takes a string if one is in front. -/
def maybePopString := maybe (·.is .string) popString

/-- Takes an integer if a number without a fractional part is in front. -/
def maybePopInteger :=
  maybe (fun node => (node.atom?.bind Atom.number?).any Binary64.isIntegral) popInteger

/-- Takes a list if one is in front. -/
def maybePopList := maybe (·.is .list) popList

/-- Refuses a cursor that has nodes left. -/
def assertEmpty (cursor : Cursor) (label : String) : Except Error Unit :=
  match cursor.front? with
  | none => .ok ()
  | some front => .error ⟨.cursor ("Expected no more values for " ++ label), front.location⟩

end Cursor

end Sexpr
