import Sexpr.Cursor
import Sexpr.Node.Forest
import Sexpr.Token.Scanner

/-! Reading a text as a forest, or as the lists at its top. -/

namespace Sexpr

/-- The forest of a text, with or without its comments. -/
def parseText (text : String) (path : Option Path := none) (ignoreComments : Bool := true) :
    Except Error (List Node) := do
  -- Comments take part in the nesting and are dropped afterwards.
  let nodes ← parse (← tokenize text path)
  return if ignoreComments then stripComments nodes else nodes

/-- A cursor over a node at the top of a text, which has to be a list. -/
def topList (node : Node) : Except Error Cursor :=
  if node.is .list then Cursor.ofNode node "list"
  else .error ⟨.structural .invalid (some "Expected list"), node.location⟩

/-- Cursors over the lists that make up a text, comments left out. -/
def parseLists (text : String) (path : Option Path := none) : Except Error (List Cursor) := do
  (← parseText text path).mapM topList

end Sexpr
