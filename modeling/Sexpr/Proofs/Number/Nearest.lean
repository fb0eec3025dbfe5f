import Mathlib.Order.Monotone.Basic
import Mathlib.Tactic.Ring
import Sexpr.Number.Binary64

/-! Rounding to binary64: the rank that is computed is the one nearest to a fraction, ties to even. -/

namespace Sexpr.Binary64

/-- How far the magnitude at a rank lies from a fraction, in parts of the finest spacing.

One part is the finest spacing over the denominator, so that no quotient occurs. -/
def offBy (rank numerator denominator : Nat) : Nat :=
  (units rank * denominator - numerator * 2 ^ finest) +
    (numerator * 2 ^ finest - units rank * denominator)

/-- No rank lies nearer to a fraction, and where another one lies as near this one is even.

Ranks go on past the finite numbers, so this rounds as if the exponent had no bound. -/
structure IsNearest (rank numerator denominator : Nat) : Prop where
  least : ∀ other, offBy rank numerator denominator ≤ offBy other numerator denominator
  even : ∀ other, other ≠ rank →
    offBy other numerator denominator = offBy rank numerator denominator → rank % 2 = 0

/-- The doublings at a rank, with the power written as arithmetic knows it. -/
theorem doublings_eq (rank : Nat) : doublings rank = rank / 2 ^ 52 - 1 := rfl

/-- The magnitude at a rank, with the powers written as arithmetic knows them. -/
theorem units_eq (rank : Nat) :
    units rank = (rank - doublings rank * 2 ^ 52) * 2 ^ doublings rank := rfl

/-- The rank that rounding finds, with the powers written as arithmetic knows them. -/
theorem nearestRank_eq (numerator denominator : Nat) :
    nearestRank numerator denominator =
      (Nat.log2 (numerator * 2 ^ finest / denominator) - 52) * 2 ^ 52 +
        roundHalfEven (numerator * 2 ^ finest)
          (denominator * 2 ^ (Nat.log2 (numerator * 2 ^ finest / denominator) - 52)) := by
  -- The definition names the power function, and the theory writes it as a power.
  simp only [nearestRank, Nat.pow_eq]

/-- A rank splits into doublings of the spacing and a significand of at most 53 bits. -/
theorem units_split {shift significand : Nat} (bounded : significand ≤ 2 ^ 53)
    (full : shift = 0 ∨ 2 ^ 52 ≤ significand) :
    units (shift * 2 ^ 52 + significand) = significand * 2 ^ shift := by
  -- Only the significand with all bits carried over counts one more doubling.
  rcases Nat.lt_or_ge significand (2 ^ 53) with small | carried
  · have doubled : doublings (shift * 2 ^ 52 + significand) = shift := by
      rw [doublings_eq]
      omega
    rw [units_eq, doubled]
    congr 1
    omega
  · have top : significand = 2 ^ 53 := by omega
    have doubled : doublings (shift * 2 ^ 52 + significand) = shift + 1 := by
      rw [doublings_eq]
      omega
    have left : shift * 2 ^ 52 + 2 ^ 53 - (shift + 1) * 2 ^ 52 = 2 ^ 52 := by omega
    rw [units_eq, doubled, top, left]
    ring

/-- Every rank splits into doublings and a significand. -/
theorem rank_split (rank : Nat) : ∃ shift significand, rank = shift * 2 ^ 52 + significand ∧
    significand < 2 ^ 53 ∧ (shift = 0 ∨ 2 ^ 52 ≤ significand) :=
  -- The doublings of a rank are the shift, and what they leave is the significand.
  ⟨doublings rank, rank - doublings rank * 2 ^ 52, by rw [doublings_eq]; omega,
    by rw [doublings_eq]; omega, by rw [doublings_eq]; omega⟩

/-- Higher ranks have larger magnitudes. -/
theorem units_strictMono : StrictMono units := by
  -- One rank up the significand grows by one, and the spacing is positive.
  apply strictMono_nat_of_lt_succ
  intro rank
  obtain ⟨shift, significand, rfl, small, full⟩ := rank_split rank
  rw [Nat.add_assoc, units_split (by omega) full, units_split (by omega) (by omega)]
  exact Nat.mul_lt_mul_of_pos_right (by omega) (Nat.two_pow_pos shift)

/-- Of the two ranks that enclose a fraction the nearer one is nearest of all. -/
theorem isNearest_of_enclosed {rank numerator denominator : Nat} {nearest : Nat}
    (below : units rank * denominator ≤ numerator * 2 ^ finest)
    (above : numerator * 2 ^ finest < units (rank + 1) * denominator)
    (chosen : nearest = rank ∧
        (offBy rank numerator denominator < offBy (rank + 1) numerator denominator ∨
          offBy rank numerator denominator = offBy (rank + 1) numerator denominator ∧
            rank % 2 = 0) ∨
      nearest = rank + 1 ∧
        (offBy (rank + 1) numerator denominator < offBy rank numerator denominator ∨
          offBy (rank + 1) numerator denominator = offBy rank numerator denominator ∧
            (rank + 1) % 2 = 0)) :
    IsNearest nearest numerator denominator := by
  -- Over zero both bounds would be zero, and the upper one is strict.
  have positive : 0 < denominator := by
    rcases Nat.eq_zero_or_pos denominator with rfl | positive
    · omega
    · exact positive
  -- Ranks below the lower and above the upper one lie strictly farther out.
  have elsewhere : ∀ other, other ≠ rank → other ≠ rank + 1 →
      offBy nearest numerator denominator < offBy other numerator denominator := by
    intro other notLower notUpper
    rcases Nat.lt_or_gt_of_ne notLower with less | more
    · -- What is smaller lies farther below the fraction than the lower rank does.
      have := Nat.mul_lt_mul_of_pos_right (units_strictMono less) positive
      have : offBy rank numerator denominator < offBy other numerator denominator := by
        unfold offBy
        omega
      rcases chosen with ⟨rfl, _⟩ | ⟨rfl, _⟩ <;> omega
    · -- What is larger lies farther above it than the upper rank does.
      have := Nat.mul_lt_mul_of_pos_right
        (units_strictMono (show rank + 1 < other by omega)) positive
      have : offBy (rank + 1) numerator denominator < offBy other numerator denominator := by
        unfold offBy
        omega
      rcases chosen with ⟨rfl, _⟩ | ⟨rfl, _⟩ <;> omega
  constructor
  · -- The chosen rank is the nearer of the two, and all others lie farther out.
    intro other
    by_cases lower : other = rank
    · subst lower
      rcases chosen with ⟨rfl, _⟩ | ⟨rfl, _⟩ <;> omega
    by_cases upper : other = rank + 1
    · subst upper
      rcases chosen with ⟨rfl, _⟩ | ⟨rfl, _⟩ <;> omega
    exact Nat.le_of_lt (elsewhere other lower upper)
  · -- Only the other one of the two can be as near, and a tie chose the even one.
    intro other different tied
    have among : other = rank ∨ other = rank + 1 := by
      by_contra neither
      have := elsewhere other (by omega) (by omega)
      omega
    rcases among with rfl | rfl <;> rcases chosen with ⟨rfl, _⟩ | ⟨rfl, _⟩ <;> omega

/-- A fraction has only one nearest rank. -/
theorem IsNearest.unique {rank other numerator denominator : Nat} (positive : 0 < denominator)
    (nearest : IsNearest rank numerator denominator)
    (otherNearest : IsNearest other numerator denominator) : rank = other := by
  -- Two distinct ones would both be even, and the odd rank between them would be nearer.
  by_contra different
  have tied : offBy rank numerator denominator = offBy other numerator denominator :=
    Nat.le_antisymm (nearest.least other) (otherNearest.least rank)
  have even := nearest.even other (Ne.symm different) tied.symm
  have otherEven := otherNearest.even rank different tied
  have between := nearest.least ((rank + other) / 2)
  unfold offBy at tied between
  rcases Nat.lt_or_gt_of_ne different with less | more
  · -- Both magnitudes are strictly on either side of the one between.
    have first := Nat.mul_lt_mul_of_pos_right
      (units_strictMono (show rank < (rank + other) / 2 by omega)) positive
    have second := Nat.mul_lt_mul_of_pos_right
      (units_strictMono (show (rank + other) / 2 < other by omega)) positive
    omega
  · have first := Nat.mul_lt_mul_of_pos_right
      (units_strictMono (show other < (rank + other) / 2 by omega)) positive
    have second := Nat.mul_lt_mul_of_pos_right
      (units_strictMono (show (rank + other) / 2 < rank by omega)) positive
    omega

/-- A rounded quotient is one of the two naturals around it, the nearer or the even one. -/
theorem roundHalfEven_cases (numerator denominator : Nat) :
    (roundHalfEven numerator denominator = numerator / denominator ∧
      (2 * (numerator % denominator) < denominator ∨
        2 * (numerator % denominator) = denominator ∧ numerator / denominator % 2 = 0)) ∨
    (roundHalfEven numerator denominator = numerator / denominator + 1 ∧
      (denominator < 2 * (numerator % denominator) ∨
        2 * (numerator % denominator) = denominator ∧ numerator / denominator % 2 = 1)) := by
  -- Below the half the quotient stays, above it the next one follows, and a half goes to the even one.
  simp only [roundHalfEven]
  split
  · omega
  · split <;> omega

/-- The spacing that rounding chooses leaves a significand of 53 bits, or the finest one fewer. -/
theorem significand_bounds (quotient : Nat) :
    quotient / 2 ^ (Nat.log2 quotient - 52) < 2 ^ 53 ∧
      (Nat.log2 quotient - 52 = 0 ∨ 2 ^ 52 ≤ quotient / 2 ^ (Nat.log2 quotient - 52)) := by
  -- The logarithm tells how many bits there are, and it matters whether they exceed the 53 of a significand.
  have upper : quotient < 2 ^ (Nat.log2 quotient + 1) := Nat.lt_log2_self
  rcases Nat.lt_or_ge 52 (Nat.log2 quotient) with wide | narrow
  · -- Shifting by the surplus bits leaves the leading 53.
    have filled : quotient ≠ 0 := by
      intro zero
      simp [zero] at wide
    -- The leading bit is among those that are left.
    have lower : 2 ^ Nat.log2 quotient ≤ quotient := Nat.log2_self_le filled
    obtain ⟨shift, split⟩ : ∃ shift, Nat.log2 quotient = 52 + shift :=
      ⟨Nat.log2 quotient - 52, by omega⟩
    rw [split] at upper lower ⊢
    rw [Nat.add_sub_cancel_left]
    constructor
    · rw [Nat.div_lt_iff_lt_mul (Nat.two_pow_pos shift), ← Nat.pow_add]
      rwa [show 53 + shift = 52 + shift + 1 by omega]
    · right
      rw [Nat.le_div_iff_mul_le (Nat.two_pow_pos shift), ← Nat.pow_add]
      exact lower
  · -- A quotient of at most 53 bits is its own significand, in the finest spacing.
    have whole : Nat.log2 quotient - 52 = 0 := by omega
    rw [whole]
    have bound : 2 ^ (Nat.log2 quotient + 1) ≤ 2 ^ 53 :=
      Nat.pow_le_pow_right (by decide) (by omega)
    constructor
    · rw [Nat.pow_zero, Nat.div_one]
      omega
    · exact Or.inl rfl

/-- Rounding finds the nearest rank. -/
theorem nearestRank_isNearest (numerator : Nat) {denominator : Nat} (positive : 0 < denominator) :
    IsNearest (nearestRank numerator denominator) numerator denominator := by
  -- The quotient in the chosen spacing and its successor are the enclosing significands.
  have bounds := significand_bounds (numerator * 2 ^ finest / denominator)
  rw [nearestRank_eq]
  -- From here on only the bounds of the shift and of the division matter.
  generalize Nat.log2 (numerator * 2 ^ finest / denominator) - 52 = shift at bounds ⊢
  rw [Nat.div_div_eq_div_mul] at bounds
  have rounded := roundHalfEven_cases (numerator * 2 ^ finest) (denominator * 2 ^ shift)
  have division := Nat.div_add_mod (numerator * 2 ^ finest) (denominator * 2 ^ shift)
  have remainder := Nat.mod_lt (numerator * 2 ^ finest)
    (Nat.mul_pos positive (Nat.two_pow_pos shift))
  generalize numerator * 2 ^ finest / (denominator * 2 ^ shift) = quotient at *
  generalize numerator * 2 ^ finest % (denominator * 2 ^ shift) = left at *
  -- Both significands belong to ranks of this spacing, the upper one perhaps as the first of the next.
  have lowerUnits : units (shift * 2 ^ 52 + quotient) = quotient * 2 ^ shift :=
    units_split (by omega) bounds.2
  have upperUnits : units (shift * 2 ^ 52 + (quotient + 1)) = (quotient + 1) * 2 ^ shift :=
    units_split (by omega) (by omega)
  -- Both magnitudes times the denominator, in terms of the step between them.
  have lower : units (shift * 2 ^ 52 + quotient) * denominator =
      denominator * 2 ^ shift * quotient := by
    rw [lowerUnits]
    ring
  have upper : units (shift * 2 ^ 52 + quotient + 1) * denominator =
      denominator * 2 ^ shift * quotient + denominator * 2 ^ shift := by
    rw [Nat.add_assoc, upperUnits]
    ring
  -- The remainder is how far the lower magnitude lies below, so rounding compares the distances.
  refine @isNearest_of_enclosed (shift * 2 ^ 52 + quotient) _ _ _ (by omega) (by omega) ?_
  unfold offBy
  rw [lower, upper]
  omega

/-- A rank whose magnitude equals a fraction is nearest to it. -/
theorem isNearest_of_eq {rank numerator denominator : Nat} (positive : 0 < denominator)
    (exact : units rank * denominator = numerator * 2 ^ finest) :
    IsNearest rank numerator denominator := by
  -- Nothing is nearer than an exact hit, and no other rank hits as well.
  constructor
  · -- Nothing is off by less than nothing.
    intro other
    unfold offBy
    omega
  · -- Distinct ranks have distinct magnitudes, so none ties.
    intro other different tied
    unfold offBy at tied
    rcases Nat.lt_or_gt_of_ne different with less | more
    · have := Nat.mul_lt_mul_of_pos_right (units_strictMono less) positive
      omega
    · have := Nat.mul_lt_mul_of_pos_right (units_strictMono more) positive
      omega

/-- A rank whose magnitude equals a fraction is what rounding finds. -/
theorem nearestRank_of_eq {rank numerator denominator : Nat} (positive : 0 < denominator)
    (exact : units rank * denominator = numerator * 2 ^ finest) :
    nearestRank numerator denominator = rank :=
  -- A magnitude that is exact is nearest, and only one rank is.
  (nearestRank_isNearest numerator positive).unique positive (isNearest_of_eq positive exact)

/-- A fraction that reaches the magnitude at a rank is not rounded below that rank. -/
theorem le_nearestRank {rank numerator denominator : Nat} (positive : 0 < denominator)
    (reached : units rank * denominator ≤ numerator * 2 ^ finest) :
    rank ≤ nearestRank numerator denominator := by
  -- A lower rank would lie farther below the fraction than this one does.
  by_contra below
  have less := Nat.mul_lt_mul_of_pos_right (units_strictMono (Nat.lt_of_not_le below)) positive
  have least := (nearestRank_isNearest numerator positive).least rank
  unfold offBy at least
  omega

/-- A fraction below half of the finest spacing is rounded to zero. -/
theorem nearestRank_eq_zero {numerator denominator : Nat}
    (small : 2 * (numerator * 2 ^ finest) < denominator) : nearestRank numerator denominator = 0 := by
  -- The magnitudes at stake are zero and the finest spacing.
  have lower : units 0 * denominator = 0 := by simp [units_eq]
  have upper : units (0 + 1) * denominator = denominator := by simp [units_eq, doublings_eq]
  -- The fraction lies between the first two ranks, and nearer to the lower one.
  have nearest : IsNearest 0 numerator denominator := by
    refine @isNearest_of_enclosed 0 _ _ _ (by omega) (by omega) (Or.inl ⟨rfl, Or.inl ?_⟩)
    unfold offBy
    omega
  exact (nearestRank_isNearest numerator (by omega)).unique (by omega) nearest

/-- Below the bound a rank is that of a finite number. -/
theorem ofRank_of_lt (negative : Bool) {rank : Nat} (inRange : rank < rankCount) :
    ofRank negative rank = .finite negative rank inRange :=
  dif_pos inRange

/-- From the bound on a rank is that of an infinite number. -/
theorem ofRank_of_le (negative : Bool) {rank : Nat} (beyond : rankCount ≤ rank) :
    ofRank negative rank = .infinity negative :=
  dif_neg (Nat.not_lt.mpr beyond)

/-- A finite number has a sign and a rank. -/
theorem exists_finite {number : Binary64} (finite : number.isFinite = true) :
    ∃ negative rank inRange, number = .finite negative rank inRange := by
  -- The other two variants are not finite.
  cases number with
  | nan => cases finite
  | infinity => cases finite
  | finite negative rank inRange => exact ⟨negative, rank, inRange, rfl⟩

/-- A number that equals an integer is finite. -/
theorem isFinite_of_toInt? {number : Binary64} {value : Int} (integer : number.toInt? = some value) :
    number.isFinite = true := by
  cases number with
  | nan => cases integer
  | infinity => cases integer
  | finite => rfl

end Sexpr.Binary64
