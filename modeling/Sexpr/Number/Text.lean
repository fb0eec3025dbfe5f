import Sexpr.Number.Binary64

/-! The text of a number: integers in full, and other numbers with the fewest digits that read back.

The latter stands for a library's unique positional notation. What is documented of it is computed here: the
fewest digits that read back as the number, of these the nearest to it, and on a tie an even last digit. -/

namespace Sexpr.Binary64

/-- The two naturals that enclose a fraction, the nearer one first.

Of two equally near ones the even one comes first. -/
def enclosing (numerator denominator : Nat) : List Nat :=
  -- Twice the remainder tells which of the two is nearer.
  let below := numerator / denominator
  let remainder := 2 * (numerator % denominator)
  if remainder < denominator || (remainder == denominator && below % 2 == 0) then [below, below + 1]
  else [below + 1, below]

/-- The nearest numerator over ten to the given places that reads back as the rank. -/
def numeratorAt? (rank places : Nat) : Option Nat :=
  (enclosing (units rank * Nat.pow 10 places) (Nat.pow 2 finest)).find? fun numerator =>
    nearestRank numerator (Nat.pow 10 places) == rank

/-- The least places at which a rank has a decimal that reads back, and the numerator there.

As many places as the finest spacing halves always suffice, so the search succeeds. -/
def fewestPlaces (rank : Nat) : Nat × Nat :=
  ((List.range (finest + 1)).findSome? fun places =>
    (numeratorAt? rank places).map (places, ·)).getD (0, 0)

/-- A numerator over ten to the given places, with a point before the places and a digit before the point. -/
def positional (places numerator : Nat) : List Char :=
  let digits := Nat.toDigits 10 numerator
  let padded := List.replicate (places + 1 - digits.length) '0' ++ digits
  -- All but the last places stand in front of the point.
  let whole := padded.length - places
  if places = 0 then padded else padded.take whole ++ '.' :: padded.drop whole

/-- The text of a finite number, given the integer that it equals if there is one.

An integer is written in full, and negative zero loses its sign. -/
def finiteChars (negative : Bool) (rank : Nat) : Option Int → List Char
  | some value => (if value < 0 then ['-'] else []) ++ Nat.toDigits 10 value.natAbs
  | none =>
    let fewest := fewestPlaces rank
    (if negative then ['-'] else []) ++ positional fewest.1 fewest.2

/-- The text of a number in positional notation, without an exponent. -/
def toChars : Binary64 → List Char
  | .nan .. => "nan".toList
  | .infinity negative => (if negative then "-inf" else "inf").toList
  | .finite negative rank inRange =>
    finiteChars negative rank (Binary64.finite negative rank inRange).toInt?

/-- The text of a number as a string. -/
def text (number : Binary64) : String := String.ofList number.toChars

end Sexpr.Binary64
