import Sexpr.Number.Literal
import Sexpr.Text.Digits

/-! Numerals in full generality: blank space around them, digits of any script, single underscores
between digits, exponents, and the words for what is not finite. -/

namespace Sexpr

/-- A decimal digit of any script as one of the ten common digits; other characters stay. -/
def commonDigit (char : Char) : Char :=
  ((decimalDigit? char).map Nat.digitChar).getD char

/-- A text without the blank space at its ends. -/
def stripSpace (text : List Char) : List Char :=
  -- The end is stripped as the front of the reversed text.
  ((text.dropWhile isSpace).reverse.dropWhile isSpace).reverse

/-- Takes out the underscores, each of which has to stand between two digits. The flag says whether a
digit stands before the text. -/
def dropUnderscores (behindDigit : Bool) : List Char → Option (List Char)
  | [] => some []
  | '_' :: char :: rest =>
    if behindDigit && char.isDigit then (dropUnderscores true rest).map (char :: ·) else none
  | ['_'] => none
  | char :: rest => (dropUnderscores char.isDigit rest).map (char :: ·)

/-- The exponent behind the digits of a numeral; without one it is zero. -/
def readExponent : List Char → Option Int
  | [] => some 0
  | mark :: rest =>
    let (sign, digits) := splitSign rest
    if (mark == 'e' || mark == 'E') && digits != [] && digits.all Char.isDigit then
      some (if sign == ['-'] then -(digitsValue digits : Int) else digitsValue digits)
    else none

/-- The number nearest to a natural times a power of ten.

Beyond the finite numbers, and below half of the least one, the power itself is never computed. -/
def Binary64.ofScientific (negative : Bool) (value : Nat) (exponent : Int) : Binary64 :=
  -- The size is the power of ten just above the value.
  let size := (Nat.toDigits 10 value).length + exponent
  if value = 0 || size < -330 then .ofRank negative 0
  else if 310 < size then .infinity negative
  else if exponent < 0 then .ofFraction negative value (Nat.pow 10 exponent.natAbs)
  else .ofFraction negative (value * Nat.pow 10 exponent.natAbs) 1

/-- The number that a word stands for, whatever the case of its letters. -/
def readNumberWord (negative : Bool) (word : List Char) : Option Binary64 :=
  match String.ofList (word.map Char.toLower) with
  | "inf" | "infinity" => some (.infinity negative)
  | "nan" => some (.quiet negative)
  | _ => none

/-- The number nearest to the value of a numeral; other texts have none. -/
def readNumeral (text : List Char) : Option Binary64 := do
  let (sign, body) := splitSign (← dropUnderscores false (stripSpace (text.map commonDigit)))
  let negative := sign == ['-']
  let (decimal, tail) := splitDecimal body
  let (whole, point) := splitWhile Char.isDigit decimal
  let fraction := point.drop 1
  -- Without any digit the text can only be a word.
  if whole ++ fraction == [] then readNumberWord negative body
  else
    let exponent ← readExponent tail
    return .ofScientific negative (digitsValue (whole ++ fraction)) (exponent - fraction.length)

end Sexpr
