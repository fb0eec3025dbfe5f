import Sexpr.Number.Text

/-! The general text of a number: the fewest digits that read back, with an exponent where it is far
from one, and always a point or an exponent. -/

namespace Sexpr.Binary64

/-- The nearest multiple of a power of ten that reads back as the rank, by its factor. -/
def factorAt? (rank power : Nat) : Option Nat :=
  (enclosing (units rank) (Nat.pow 2 finest * Nat.pow 10 power)).find? fun factor =>
    nearestRank (factor * Nat.pow 10 power) 1 == rank

/-- The largest power of ten with a multiple that reads back as an integral rank, and its factor. -/
def largestPower (rank : Nat) : Nat × Nat :=
  ((List.range 309).reverse.findSome? fun power =>
    (factorAt? rank power).map (power, ·)).getD (0, 0)

/-- The fewest digits that read back as a rank, as a natural, and the power of ten of the last one. -/
def shortest (rank : Nat) : Nat × Int :=
  if units rank % Nat.pow 2 finest = 0 then
    -- An integral magnitude may need zeros behind its digits.
    let (power, factor) := largestPower rank
    (factor, power)
  else
    let (places, numerator) := fewestPlaces rank
    (numerator, -(places : Int))

/-- Digits with a point behind the first one, if more follow, and an exponent of two digits or more. -/
def scientific (digits : List Char) (exponent : Int) : List Char :=
  let sign := if exponent < 0 then '-' else '+'
  let magnitude := Nat.toDigits 10 exponent.natAbs
  let padded := List.replicate (2 - magnitude.length) '0' ++ magnitude
  match digits with
  | [] => []
  | [digit] => digit :: 'e' :: sign :: padded
  | digit :: digits => digit :: '.' :: digits ++ 'e' :: sign :: padded

/-- The general text of a magnitude. The exponent is written below -4 and from 16 on. -/
def generalMagnitude (rank : Nat) : List Char :=
  if rank = 0 then "0.0".toList
  else
    let (number, last) := shortest rank
    -- The exponent belongs to the first digit, as if the point stood behind it.
    let digits := Nat.toDigits 10 number
    let exponent := last + digits.length - 1
    if exponent < -4 || 16 ≤ exponent then scientific digits exponent
    else if last < 0 then positional last.natAbs number
    else digits ++ List.replicate last.toNat '0' ++ ".0".toList

/-- The general text of a number. -/
def general : Binary64 → String
  | .nan .. => "nan"
  | .infinity negative => if negative then "-inf" else "inf"
  | .finite negative rank _ =>
    String.ofList ((if negative then ['-'] else []) ++ generalMagnitude rank)

end Sexpr.Binary64
