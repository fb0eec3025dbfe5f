import Sexpr.Number.Binary64

/-! Decimal literals: an optional sign, digits, and at most one point among or after them. -/

namespace Sexpr

/-- The two characters that may sign a literal. -/
def isSign (char : Char) : Bool := char == '+' || char == '-'

/-- Whether a text opens like a literal: a digit, or a sign with a digit behind it. -/
def startsNumber : List Char → Bool
  | [] => false
  | [char] => char.isDigit
  | char :: next :: _ => char.isDigit || (isSign char && next.isDigit)

/-- Splits off the longest run of characters with a property. -/
def splitWhile (holds : Char → Bool) (text : List Char) : List Char × List Char :=
  (text.takeWhile holds, text.dropWhile holds)

/-- Splits off a sign. -/
def splitSign : List Char → List Char × List Char
  | char :: rest => if isSign char then ([char], rest) else ([], char :: rest)
  | [] => ([], [])

/-- Splits off the longest run of digits that holds at most one point. -/
def splitDecimal (text : List Char) : List Char × List Char :=
  let (whole, rest) := splitWhile Char.isDigit text
  -- The first point goes with the number, and a second one does not.
  match rest with
  | '.' :: rest =>
    let (fraction, rest) := splitWhile Char.isDigit rest
    (whole ++ '.' :: fraction, rest)
  | rest => (whole, rest)

/-- Splits off the longest literal. -/
def splitLiteral (text : List Char) : List Char × List Char :=
  let (sign, rest) := splitSign text
  let (decimal, rest) := splitDecimal rest
  (sign ++ decimal, rest)

/-- A run that opens with a digit is not empty. -/
theorem splitDecimal_pos {text : List Char} (opens : text.head?.map Char.isDigit = some true) :
    0 < (splitDecimal text).1.length := by
  -- The first digit belongs to the digits before the point.
  match text with
  | [] => simp at opens
  | char :: rest =>
    have digit : char.isDigit = true := by simpa using opens
    simp only [splitDecimal, splitWhile, List.takeWhile_cons, List.dropWhile_cons, digit, if_true]
    split <;> simp

/-- A literal is not empty where a number starts. -/
theorem splitLiteral_pos {text : List Char} (starts : startsNumber text = true) :
    0 < (splitLiteral text).1.length := by
  -- Either the sign or the first digit belongs to the literal.
  match text with
  | [] => simp [startsNumber] at starts
  | char :: rest =>
    by_cases sign : isSign char = true
    · simp [splitLiteral, splitSign, sign]
    · have digit : char.isDigit = true := by
        cases rest <;> simp_all [startsNumber]
      simpa [splitLiteral, splitSign, sign] using splitDecimal_pos (by simpa using digit)

/-- The natural that a run of digits spells. -/
def digitsValue (digits : List Char) : Nat := Nat.ofDigitChars 10 digits 0

/-- The number nearest to the value of a literal. -/
def readLiteral (literal : List Char) : Binary64 :=
  let (sign, decimal) := splitSign literal
  let (whole, tail) := splitWhile Char.isDigit decimal
  -- The point itself stands in front of the digits behind it.
  let fraction := tail.drop 1
  Binary64.ofFraction (sign == ['-']) (digitsValue (whole ++ fraction)) (Nat.pow 10 fraction.length)

end Sexpr
