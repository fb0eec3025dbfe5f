import Sexpr.Proofs.Number.Numeral
import Sexpr.Proofs.Number.Shortest

/-! Integers as numbers: which of them have a finite number nearest to them, which are converted exactly, and which
literals denote the very integer that they spell. -/

namespace Sexpr

namespace Binary64

/-- A finite number that equals an integer. -/
structure Equals (number : Binary64) (value : Int) : Prop where
  finite : number.isFinite = true
  exact : number.scaled = value * 2 ^ finest

variable {value : Int}

/-- An integer is converted to the number with its sign and nearest rank, if that is finite. -/
theorem ofInt?_eq (value : Int) : ofInt? value =
    if (ofRank (decide (value < 0)) (nearestRank value.natAbs 1)).isFinite then
      some (ofRank (decide (value < 0)) (nearestRank value.natAbs 1))
    else none := rfl

/-- An integer whose nearest rank is that of a finite number is converted to this number, with its sign. -/
theorem ofInt?_of_lt (inRange : nearestRank value.natAbs 1 < rankCount) :
    ofInt? value = some (.finite (decide (value < 0)) (nearestRank value.natAbs 1) inRange) := by
  -- Rounding stays within the finite numbers, so the conversion returns what it found.
  rw [ofInt?_eq, ofRank_of_lt _ inRange]
  exact if_pos rfl

/-- An integer whose nearest rank lies beyond the finite numbers is not converted. -/
theorem ofInt?_of_le (beyond : rankCount ≤ nearestRank value.natAbs 1) : ofInt? value = none := by
  -- Rounding ends in infinity, which the conversion refuses.
  rw [ofInt?_eq, ofRank_of_le _ beyond]
  exact if_neg Bool.false_ne_true

/-- A magnitude with the sign of an integer is that integer. -/
theorem signed_natAbs (value : Int) : signed (decide (value < 0)) value.natAbs = value := by
  -- The sign says on which side of zero the magnitude is counted.
  by_cases negative : value < 0
  · simp only [signed, negative, decide_true, if_true]
    omega
  · simp only [signed, negative, decide_false, Bool.false_eq_true, if_false]
    omega

/-- An integer other than zero equals a single number. -/
theorem Equals.unique {number other : Binary64} (equals : number.Equals value) (same : other.Equals value)
    (nonzero : value ≠ 0) : number = other := by
  -- Both numbers are finite, and a signed magnitude tells its sign and its rank.
  obtain ⟨finite, exact⟩ := equals
  obtain ⟨otherFinite, otherExact⟩ := same
  obtain ⟨negative, rank, inRange, rfl⟩ := exists_finite finite
  obtain ⟨otherNegative, otherRank, otherInRange, rfl⟩ := exists_finite otherFinite
  -- Only the magnitude zero has two signs, and it is that of the integer zero.
  obtain ⟨magnitude, sign⟩ := signed_eq_iff.mp (exact.trans otherExact.symm)
  obtain rfl := units_strictMono.injective magnitude
  rw [units_of_signed_eq exact, Nat.mul_eq_zero, Int.natAbs_eq_zero] at sign
  obtain rfl := sign.resolve_right fun zero => zero.elim nonzero (Nat.two_pow_pos finest).ne'
  rfl

/-- An integer that some number equals is converted to a number that equals it, and zero to the one without a
sign. -/
theorem ofInt?_of_equals {number : Binary64} (equals : number.Equals value) :
    ∃ rounded, ofInt? value = some rounded ∧ rounded.Equals value ∧ (value = 0 → rounded = zero) := by
  -- Only a finite number equals an integer.
  obtain ⟨finite, exact⟩ := equals
  obtain ⟨negative, rank, inRange, rfl⟩ := exists_finite finite
  -- The magnitude is as many times one as the integer has it, so rounding finds its rank.
  have magnitude := units_of_signed_eq exact
  have read : nearestRank value.natAbs 1 = rank :=
    nearestRank_of_eq Nat.one_pos (by rw [Nat.mul_one, magnitude])
  refine ⟨_, ofInt?_of_lt (read ▸ inRange), ⟨rfl, ?_⟩, ?_⟩
  · rw [scaled, read, magnitude, signed_mul, signed_natAbs, Nat.cast_pow, Nat.cast_ofNat]
  · rintro rfl
    simp [zero, ofRank, rankCount, nearestRank_eq_zero]

/-- The integer that a number equals is what the number is converted to, where it equals one. -/
theorem equals_iff_toInt? {number : Binary64} : number.Equals value ↔ number.toInt? = some value := by
  -- The integer of a finite number is read off the same equation, and any other number has none.
  constructor
  · rintro ⟨finite, exact⟩
    exact (toInt?_eq_some_iff finite value).mpr exact
  · intro found
    have finite := isFinite_of_toInt? found
    exact ⟨finite, (toInt?_eq_some_iff finite value).mp found⟩

/-- A significand of at most 53 bits, doubled any number of times, is the magnitude at some rank. -/
theorem exists_units_eq (shift : Nat) {significand : Nat} (bounded : significand ≤ 2 ^ 53) :
    ∃ rank, units rank = significand * 2 ^ shift := by
  -- The induction is on the shift, as a significand takes up each doubling or leaves it to the spacing.
  induction shift generalizing significand with
  | zero =>
    have split := units_split bounded (Or.inl rfl)
    exact ⟨_, split⟩
  | succ shift ih =>
    rcases Nat.lt_or_ge significand (2 ^ 52) with small | full
    · -- The significand has a bit to spare, which takes up one of the doublings.
      obtain ⟨rank, same⟩ := @ih (significand * 2) (by omega)
      exact ⟨rank, by rw [same, Nat.mul_assoc, ← Nat.pow_succ']⟩
    · exact ⟨_, units_split bounded (Or.inr full)⟩

end Binary64

namespace Literal

/-- A literal whose decimal value is exactly an integer. -/
def IsInteger (literal : Literal) (value : Int) : Prop :=
  Binary64.signed literal.negative literal.numerator = value * literal.denominator

instance (literal : Literal) (value : Int) : Decidable (literal.IsInteger value) :=
  inferInstanceAs (Decidable (_ = _))

variable {literal : Literal} {value : Int}

/-- The digits of such a literal spell the magnitude of the integer, as many times as there are parts in one. -/
theorem IsInteger.numerator_eq (whole : literal.IsInteger value) :
    literal.numerator = value.natAbs * literal.denominator := by
  -- The absolute value of both sides is taken.
  rw [← Binary64.natAbs_signed literal.negative literal.numerator, whole, Int.natAbs_mul, Int.natAbs_natCast]

/-- And its sign is that of the integer. -/
theorem IsInteger.signed_eq (whole : literal.IsInteger value) :
    Binary64.signed literal.negative value.natAbs = value := by
  -- The denominator is no zero, so it cancels.
  have same := whole
  rw [IsInteger, whole.numerator_eq, Binary64.signed_mul] at same
  exact mul_right_cancel₀ (Int.natCast_ne_zero.mpr literal.denominator_pos.ne') same

/-- A literal that is exactly an integer of at most 53 bits denotes a number that equals it. -/
theorem IsInteger.denotes (whole : literal.IsInteger value) (bounded : value.natAbs ≤ 2 ^ 53) :
    ∃ number, literal.Denotes number ∧ number.Equals value := by
  -- An integer this small fits into a significand, so some rank has just its magnitude.
  obtain ⟨rank, magnitude⟩ := Binary64.exists_units_eq Binary64.finest bounded
  -- The magnitude of the integer is itself that of a rank, so nothing is rounded.
  have nearest : Binary64.IsNearest rank literal.numerator literal.denominator := by
    refine Binary64.isNearest_of_eq literal.denominator_pos ?_
    rw [magnitude, whole.numerator_eq, Nat.mul_right_comm]
  have inRange : rank < Binary64.rankCount := by
    rw [← Binary64.units_strictMono.lt_iff_lt, magnitude, Binary64.units_rankCount]
    refine Nat.mul_lt_mul_of_pos_right (Nat.lt_of_le_of_lt bounded ?_) (Nat.two_pow_pos _)
    rw [Nat.pow_lt_pow_iff_right (by decide)]
    decide
  refine ⟨_, .finite inRange nearest, rfl, ?_⟩
  rw [Binary64.scaled, magnitude, Binary64.signed_mul, whole.signed_eq, Nat.cast_pow, Nat.cast_ofNat]

end Literal

end Sexpr
