import Sexpr.Cursor
import Sexpr.Proofs.Number.Integers

/-! What can be asked of a cursor: each request takes the front node, leaves the cursor as it is, or is
refused with an error that blames the front node, or the list if there is none. -/

namespace Sexpr.Cursor

/-- What a value can be asked for as. -/
inductive Want where
  | bool
  | comment
  | number
  | identifier
  | integer
  | string
  | list
deriving DecidableEq, Repr

/-- The variant of the nodes that can be wanted. -/
def Want.kind : Want → NodeKind
  | bool => .bool
  | comment => .comment
  | number | integer => .number
  | identifier => .identifier
  | string => .string
  | list => .list

/-- A request to a cursor; the labels are words for what is expected. -/
inductive Request where
  | popFront (label : String)
  | pop (want : Want) (label : String)
  | maybePop (want : Want) (label : String)
  | peekFront
  | frontIsList
  | assertEmpty (label : String)
deriving DecidableEq, Repr

/-- What a request is answered with. -/
inductive Reply where
  | node (node : Node)
  | atom (value : Atom) (location : Location)
  | integer (value : Int) (location : Location)
  | list (inner : Cursor)
  | nothing
  | front (node : Option Node)
  | truth (value : Bool)
  | done

namespace Reply

/-- The reply with the value of an atom. -/
def ofAtom {α : Type} (wrap : α → Atom) (found : α × Location) : Reply := .atom (wrap found.1) found.2

/-- The reply with an integer. -/
def ofInteger (found : Int × Location) : Reply := .integer found.1 found.2

/-- The reply with what may have been found. -/
def orNothing {α : Type} (reply : α → Reply) : Option α → Reply
  | some found => reply found
  | none => .nothing

end Reply

/-- What was taken, in the form of a reply. -/
def replying {α : Type} (reply : α → Reply) (taken : Taken α) : Taken Reply :=
  taken.map (Prod.map reply id)

/-- Takes what is wanted. -/
def take (cursor : Cursor) (label : String) : Want → Taken Reply
  | .bool => replying (.ofAtom .bool) (cursor.popBool label)
  | .comment => replying (.ofAtom .comment) (cursor.popComment label)
  | .number => replying (.ofAtom .number) (cursor.popNumber label)
  | .identifier => replying (.ofAtom .identifier) (cursor.popIdentifier label)
  | .integer => replying .ofInteger (cursor.popInteger label)
  | .string => replying (.ofAtom .string) (cursor.popString label)
  | .list => replying .list (cursor.popList label)

/-- Takes what is wanted if it is in front. -/
def takeIfFront (cursor : Cursor) (label : String) : Want → Taken Reply
  | .bool => replying (.orNothing (.ofAtom .bool)) (cursor.maybePopBool label)
  | .comment => replying (.orNothing (.ofAtom .comment)) (cursor.maybePopComment label)
  | .number => replying (.orNothing (.ofAtom .number)) (cursor.maybePopNumber label)
  | .identifier => replying (.orNothing (.ofAtom .identifier)) (cursor.maybePopIdentifier label)
  | .integer => replying (.orNothing .ofInteger) (cursor.maybePopInteger label)
  | .string => replying (.orNothing (.ofAtom .string)) (cursor.maybePopString label)
  | .list => replying (.orNothing .list) (cursor.maybePopList label)

/-- The answer to a request, with the cursor behind it. -/
def answer (cursor : Cursor) : Request → Taken Reply
  | .popFront label => replying .node (cursor.popFront label)
  | .pop want label => cursor.take label want
  | .maybePop want label => cursor.takeIfFront label want
  | .peekFront => .ok (.front cursor.front?, cursor)
  | .frontIsList => .ok (.truth cursor.frontIsList, cursor)
  | .assertEmpty label => (cursor.assertEmpty label).map fun _ => (.done, cursor)

/-- How a request can fail: with an error, by taking a node where none is left, or by asking for the
integer next to a number that is not finite. -/
inductive Failure where
  | error (error : Error)
  | nothingLeft
  | notFinite (number : Binary64)

/-- The position that a refusal is blamed on: that of the front node, or that of the list. -/
def blamed (cursor : Cursor) : Location := (cursor.front?.map Node.location).getD cursor.anchor

/-- What a want gets from a node: the value of an atom of its variant, the integer that a number equals,
or a cursor over the children of a list, the first of which stands at a place. -/
inductive Want.Gets (place : List Nat) : Want → Node → Reply → Prop
  | atom {want : Want} {value : Atom} {tokens : List Token} (fits : value.nodeKind = want.kind)
      (whole : want ≠ .integer) :
      Want.Gets place want (.atom value tokens) (.atom value (Node.atom value tokens).location)
  | integer {number : Binary64} {value : Int} {tokens : List Token} (equals : number.Equals value) :
      Want.Gets place .integer (.atom (.number number) tokens)
        (.integer value (Node.atom (.number number) tokens).location)
  | list {children : List Node} {tokens : List Token} :
      Want.Gets place .list (.list children tokens)
        (.list ⟨children, (Node.list children tokens).location, place⟩)

/-- What a request takes from a front node. Only pops take anything. -/
inductive Request.Takes (place : List Nat) : Request → Node → Reply → Prop
  | front {label : String} {node : Node} : Request.Takes place (.popFront label) node (.node node)
  | pop {want : Want} {label : String} {node : Node} {reply : Reply}
      (gets : want.Gets place node reply) : Request.Takes place (.pop want label) node reply
  | maybePop {want : Want} {label : String} {node : Node} {reply : Reply}
      (gets : want.Gets place node reply) : Request.Takes place (.maybePop want label) node reply

/-- A want for which a cursor has nothing in front. -/
def Want.Unmet (want : Want) (cursor : Cursor) : Prop :=
  ∀ front ∈ cursor.front?, ∀ reply, ¬ want.Gets cursor.innerPlace front reply

/-- The words with which a cursor refuses a request. -/
inductive Request.Refused (cursor : Cursor) : Request → String → Prop
  | empty {label : String} (none : cursor.front? = none) :
      Request.Refused cursor (.popFront label) ("Expected " ++ label)
  | unmet {want : Want} {label : String} (unmet : want.Unmet cursor)
      (other : want = .integer → ∀ front ∈ cursor.front?, front.kind ≠ .number) :
      Request.Refused cursor (.pop want label) ("Expected " ++ label)
  | fraction {label : String} {number : Binary64} {tokens : List Token}
      (inFront : cursor.front? = some (.atom (.number number) tokens))
      (fraction : ∀ value, ¬ number.Equals value) :
      Request.Refused cursor (.pop .integer label) ("Expected an int for " ++ label)
  | occupied {label : String} {front : Node} (inFront : cursor.front? = some front) :
      Request.Refused cursor (.assertEmpty label) ("Expected no more values for " ++ label)

/-- How a request to a cursor ends, and the cursor that it leaves. Of the failures there are only errors.

What is taken is the front node and nothing else: the nodes behind it are left, in order and of the same list. -/
inductive Handled (cursor : Cursor) : Request → Except Failure Reply → Cursor → Prop
  | taken {request : Request} {front : Node} {reply : Reply} {after : Cursor}
      (nodes : cursor.nodes = front :: after.nodes) (anchor : after.anchor = cursor.anchor)
      (place : after.place = nextPlace cursor.place)
      (takes : request.Takes cursor.innerPlace front reply) : Handled cursor request (.ok reply) after
  | passed {want : Want} {label : String} (unmet : want.Unmet cursor) :
      Handled cursor (.maybePop want label) (.ok .nothing) cursor
  | peeked : Handled cursor .peekFront (.ok (.front cursor.front?)) cursor
  | looked {found : Bool}
      (list : found = true ↔ ∃ children tokens, cursor.front? = some (.list children tokens)) :
      Handled cursor .frontIsList (.ok (.truth found)) cursor
  | checked {label : String} (empty : cursor.front? = none) :
      Handled cursor (.assertEmpty label) (.ok .done) cursor
  | refused {request : Request} {message : String} (refused : request.Refused cursor message) :
      Handled cursor request (.error (.error ⟨.cursor message, cursor.blamed⟩)) cursor

end Sexpr.Cursor
