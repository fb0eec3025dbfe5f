/-! Binary64 numbers as exact values: a sign and a rank among the finite magnitudes. -/

namespace Sexpr

/-- The quotient of two naturals rounded to the nearest natural, a half going to the even one. -/
def roundHalfEven (numerator denominator : Nat) : Nat :=
  let quotient := numerator / denominator
  let remainder := numerator % denominator
  -- Twice the remainder compares with the half without a fraction.
  if 2 * remainder < denominator then quotient
  else if denominator < 2 * remainder then quotient + 1
  else quotient + quotient % 2

/-- How many finite magnitudes there are; also the rank that infinity would have. -/
def Binary64.rankCount : Nat := 2047 * Nat.pow 2 52

/-- How many payloads not-a-number has, the one that infinity's pattern would be included. -/
def Binary64.payloadCount : Nat := Nat.pow 2 52

/-- A binary64 number.

The finite magnitudes are ranked upwards from zero, so a rank is also the bit pattern of its magnitude.
Not-a-number has a sign and a payload, which nothing but its bit pattern shows. -/
inductive Binary64 where
  | nan (negative : Bool) (payload : Nat) (inRange : 0 < payload ∧ payload < Binary64.payloadCount)
  | infinity (negative : Bool)
  | finite (negative : Bool) (rank : Nat) (inRange : rank < Binary64.rankCount)
deriving DecidableEq

namespace Binary64

/-- How often the finest spacing halves one: every finite magnitude is a whole number of such steps. -/
def finest : Nat := 1074

/-- How often the spacing has doubled at a rank. -/
def doublings (rank : Nat) : Nat := rank / Nat.pow 2 52 - 1

/-- The magnitude at a rank, counted in units of the finest spacing. -/
def units (rank : Nat) : Nat :=
  -- Taking off the doublings leaves the leading bit in the significand.
  (rank - doublings rank * Nat.pow 2 52) * Nat.pow 2 (doublings rank)

/-- The rank whose magnitude is nearest to a fraction, an exact middle going to the even rank. -/
def nearestRank (numerator denominator : Nat) : Nat :=
  let scaled := numerator * Nat.pow 2 finest
  -- A significand has 53 bits, and what lies beyond them sets the spacing.
  let shift := Nat.log2 (scaled / denominator) - 52
  shift * Nat.pow 2 52 + roundHalfEven scaled (denominator * Nat.pow 2 shift)

/-- The number with a sign and a rank; past the last finite rank it is infinite. -/
def ofRank (negative : Bool) (rank : Nat) : Binary64 :=
  if inRange : rank < rankCount then .finite negative rank inRange else .infinity negative

/-- The number nearest to a signed fraction. -/
def ofFraction (negative : Bool) (numerator denominator : Nat) : Binary64 :=
  ofRank negative (nearestRank numerator denominator)

/-- Positive zero. -/
def zero : Binary64 := ofRank false 0

instance : Inhabited Binary64 := ⟨zero⟩

/-- Neither infinite nor not-a-number. -/
def isFinite : Binary64 → Bool
  | .finite .. => true
  | _ => false

/-- Numeric equality: the two zeros agree, and not-a-number agrees with nothing. -/
def agrees : Binary64 → Binary64 → Bool
  | .finite negative rank _, .finite otherNegative otherRank _ =>
    -- Among equal ranks only zero may differ in sign.
    rank == otherRank && (negative == otherNegative || rank == 0)
  | .infinity negative, .infinity otherNegative => negative == otherNegative
  | _, _ => false

/-- The number with its sign turned. -/
def negate : Binary64 → Binary64
  | .nan negative payload inRange => .nan (!negative) payload inRange
  | .infinity negative => .infinity (!negative)
  | .finite negative rank inRange => .finite (!negative) rank inRange

/-- A natural with a sign. -/
def signed (negative : Bool) (magnitude : Nat) : Int :=
  if negative then -(magnitude : Int) else magnitude

/-- The integer that a number equals, if there is one. -/
def toInt? : Binary64 → Option Int
  | .finite negative rank _ =>
    if units rank % Nat.pow 2 finest = 0 then
      some (signed negative (units rank / Nat.pow 2 finest))
    else none
  | _ => none

/-- Whether a number is finite and has no fractional part. -/
def isIntegral (number : Binary64) : Bool := number.toInt?.isSome

/-- The number nearest to an integer, unless that is beyond the finite numbers. -/
def ofInt? (value : Int) : Option Binary64 :=
  let rounded := ofFraction (decide (value < 0)) value.natAbs 1
  if rounded.isFinite then some rounded else none

/-- Not-a-number with the usual payload. -/
def quiet (negative : Bool) : Binary64 := .nan negative (Nat.pow 2 51) (by decide)

/-- The number with a 64-bit pattern: the sign on top, then the rank, and past infinity the payload. -/
def ofBits (pattern : Nat) : Binary64 :=
  -- The sign is the top bit, and what is below it is the rank of the magnitude.
  let negative := pattern / Nat.pow 2 63 % 2 == 1
  let rank := pattern % Nat.pow 2 63
  let payload := rank - rankCount
  if inRange : 0 < payload ∧ payload < payloadCount then .nan negative payload inRange
  else ofRank negative rank

/-- The 64-bit pattern of a number. -/
def toBits : Binary64 → Nat
  | .nan negative payload _ => cond negative (Nat.pow 2 63) 0 + rankCount + payload
  | .infinity negative => cond negative (Nat.pow 2 63) 0 + rankCount
  | .finite negative rank _ => cond negative (Nat.pow 2 63) 0 + rank

end Binary64

end Sexpr
