import Sexpr.Proofs.Number.Nearest

/-! What rounding keeps: the order of fractions, whatever their denominators are, and integers as integers. -/

namespace Sexpr.Binary64

/-- In parts that are finer by a factor there are as many times more of them. -/
theorem offBy_mul (rank numerator denominator factor : Nat) :
    offBy rank (numerator * factor) (denominator * factor) =
      offBy rank numerator denominator * factor := by
  -- Both differences are multiplied by the factor, and so is their sum.
  rw [offBy, offBy, ← Nat.mul_assoc, Nat.mul_right_comm numerator factor, ← Nat.sub_mul, ← Nat.sub_mul,
    ← Nat.add_mul]

/-- What is nearest to a fraction is nearest to it in any other parts. -/
theorem IsNearest.mul {rank numerator denominator factor : Nat} (nearest : IsNearest rank numerator denominator)
    (positive : 0 < factor) : IsNearest rank (numerator * factor) (denominator * factor) where
  -- All distances grow by the one factor, so they compare as before.
  least := by
    intro other
    rw [offBy_mul, offBy_mul]
    exact Nat.mul_le_mul_right factor (nearest.least other)
  even := by
    intro other different tied
    rw [offBy_mul, offBy_mul] at tied
    exact nearest.even other different (Nat.eq_of_mul_eq_mul_right positive tied)

/-- In the same parts a larger fraction has no lower rank nearest to it. -/
theorem IsNearest.mono {rank other numerator larger denominator : Nat} (positive : 0 < denominator)
    (nearest : IsNearest rank numerator denominator) (otherNearest : IsNearest other larger denominator)
    (le : numerator ≤ larger) : rank ≤ other := by
  -- With ranks the other way round, neither fraction could lie on the far side of the middle between them.
  by_contra lower
  have apart := Nat.mul_lt_mul_of_pos_right (units_strictMono (Nat.lt_of_not_le lower)) positive
  have ordered := Nat.mul_le_mul_right (2 ^ finest) le
  have least := nearest.least other
  have otherLeast := otherNearest.least rank
  have middle : numerator * 2 ^ finest = larger * 2 ^ finest := by
    unfold offBy at least otherLeast
    omega
  -- So both are that middle, which has only one nearest rank.
  obtain rfl := Nat.eq_of_mul_eq_mul_right (Nat.two_pow_pos finest) middle
  exact lower (Nat.le_of_eq (nearest.unique positive otherNearest))

variable {numerator denominator otherNumerator otherDenominator : Nat}

/-- Rounding keeps the order of fractions. -/
theorem nearestRank_mono (positive : 0 < denominator) (otherPositive : 0 < otherDenominator)
    (le : numerator * otherDenominator ≤ otherNumerator * denominator) :
    nearestRank numerator denominator ≤ nearestRank otherNumerator otherDenominator := by
  -- Both fractions are counted in parts of the common denominator.
  have nearest := (nearestRank_isNearest numerator positive).mul otherPositive
  have otherNearest := (nearestRank_isNearest otherNumerator otherPositive).mul positive
  rw [Nat.mul_comm otherDenominator] at otherNearest
  exact nearest.mono (Nat.mul_pos positive otherPositive) otherNearest le

/-- Equal fractions are rounded alike. -/
theorem nearestRank_congr (positive : 0 < denominator) (otherPositive : 0 < otherDenominator)
    (same : numerator * otherDenominator = otherNumerator * denominator) :
    nearestRank numerator denominator = nearestRank otherNumerator otherDenominator :=
  -- Rounding is monotone, and equal fractions are at most each other.
  Nat.le_antisymm (nearestRank_mono positive otherPositive (Nat.le_of_eq same))
    (nearestRank_mono otherPositive positive (Nat.le_of_eq same.symm))

/-- The magnitude that rounding finds is a rounded quotient in some spacing. -/
theorem exists_units_nearestRank (numerator denominator : Nat) : ∃ shift,
    units (nearestRank numerator denominator) =
      roundHalfEven (numerator * 2 ^ finest) (denominator * 2 ^ shift) * 2 ^ shift := by
  -- The spacing is the one that rounding chooses.
  have bounds := significand_bounds (numerator * 2 ^ finest / denominator)
  refine ⟨Nat.log2 (numerator * 2 ^ finest / denominator) - 52, ?_⟩
  rw [nearestRank_eq]
  generalize Nat.log2 (numerator * 2 ^ finest / denominator) - 52 = shift at bounds ⊢
  rw [Nat.div_div_eq_div_mul] at bounds
  -- Rounding up adds one at most, so the significand is still one of this spacing or the first of the next.
  have rounded := roundHalfEven_cases (numerator * 2 ^ finest) (denominator * 2 ^ shift)
  exact units_split (by omega) (by omega)

/-- A quotient without remainder is not changed by rounding. -/
theorem roundHalfEven_mul (quotient : Nat) {denominator : Nat} (positive : 0 < denominator) :
    roundHalfEven (quotient * denominator) denominator = quotient := by
  -- Division leaves no remainder here, so there is nothing to round.
  simp [roundHalfEven, positive]

/-- An integer is rounded to an integer. -/
theorem dvd_units_nearestRank (integer : Nat) : 2 ^ finest ∣ units (nearestRank integer 1) := by
  -- The magnitude is a multiple of a spacing, and it matters whether that is at least one.
  obtain ⟨shift, same⟩ := exists_units_nearestRank integer 1
  rw [same, Nat.one_mul]
  rcases Nat.le_total finest shift with coarse | fine
  · -- The spacing is itself an integer.
    exact Nat.dvd_mul_left_of_dvd (Nat.pow_dvd_pow 2 coarse) _
  · -- The spacing divides one, so nothing is rounded.
    have split : integer * 2 ^ finest = integer * 2 ^ (finest - shift) * 2 ^ shift := by
      rw [Nat.mul_assoc, ← Nat.pow_add, Nat.sub_add_cancel fine]
    rw [split, roundHalfEven_mul _ (Nat.two_pow_pos shift), ← split]
    exact Nat.dvd_mul_left _ _

end Sexpr.Binary64
