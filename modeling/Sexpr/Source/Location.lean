import Sexpr.Source.Path

/-! Positions within a source text, counted from zero. -/

namespace Sexpr

/-- A line, a column within it, and the file that holds the text, if one does.

Both are integers, so that a position can be moved by any distance. -/
structure Location where
  line : Int := 0
  column : Int := 0
  path : Option Path := none
deriving DecidableEq, Repr, Inhabited

namespace Location

/-- The position behind one more character. A line feed starts a new line. -/
def advance (location : Location) (char : Char) : Location :=
  if char = '\n' then { location with line := location.line + 1, column := 0 }
  else { location with column := location.column + 1 }

/-- The position behind a run of characters. -/
def advanceOver (location : Location) (chars : List Char) : Location :=
  chars.foldl advance location

/-- The text `line:column`, behind the path if there is one. -/
def text (location : Location) : String :=
  let position := s!"{location.line}:{location.column}"
  match location.path with
  | none => position
  | some path => s!"{path.text}:{position}"

end Location

end Sexpr
