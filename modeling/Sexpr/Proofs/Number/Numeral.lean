import Sexpr.Number.Numeral
import Sexpr.Proofs.Number.Literal

/-! Literals among the numerals: every literal is one, and is read as the same number. -/

namespace Sexpr

/-- A digit is one of the ten. -/
theorem digitChar_of_isDigit {char : Char} (digit : char.isDigit = true) :
    ∃ value < 10, char = Nat.digitChar value := by
  -- The ten digits follow one another, so the character is found again from its number.
  have bounds : 48 ≤ char.toNat ∧ char.toNat ≤ 57 := by
    simpa [Char.isDigit, UInt32.le_iff_toNat_le] using digit
  refine ⟨char.toNat - 48, by omega, Char.toNat_inj.mp ?_⟩
  rw [Nat.toNat_digitChar_of_lt_ten (by omega)]
  omega

/-- The characters of a literal are digits of the common script or none, and neither blank space nor an
underscore. -/
theorem Literal.plain (literal : Literal) : ∀ char ∈ literal.chars,
    commonDigit char = char ∧ isSpace char = false ∧ char ≠ '_' := by
  -- A literal is made of signs, digits and points, and each of them is looked at in turn.
  intro char member
  rcases literal.mem_chars member with sign | digit | rfl
  · simp only [isSign, Bool.or_eq_true, beq_iff_eq] at sign
    rcases sign with rfl | rfl <;> decide
  · have ten : ∀ value < 10, commonDigit (Nat.digitChar value) = Nat.digitChar value ∧
        isSpace (Nat.digitChar value) = false ∧ Nat.digitChar value ≠ '_' := by decide
    obtain ⟨value, small, rfl⟩ := digitChar_of_isDigit digit
    exact ten value small
  · decide

/-- A text without blank space is not stripped. -/
theorem stripSpace_eq_self {text : List Char} (dense : ∀ char ∈ text, isSpace char = false) :
    stripSpace text = text := by
  -- Neither end has anything to drop.
  have kept : ∀ run : List Char, (∀ char ∈ run, isSpace char = false) →
      run.dropWhile isSpace = run := by
    intro run plain
    cases run with
    | nil => rfl
    | cons char rest => simp [plain char List.mem_cons_self]
  rw [stripSpace, kept text dense, kept text.reverse (by simpa using dense), List.reverse_reverse]

/-- A text without underscores loses none. -/
theorem dropUnderscores_eq_some {text : List Char} (behindDigit : Bool) (plain : '_' ∉ text) :
    dropUnderscores behindDigit text = some text := by
  -- The induction follows the recursion, and only an underscore leads to its other branches.
  fun_induction dropUnderscores behindDigit text with
  | case1 => rfl
  | case2 => simp at plain
  | case3 => simp at plain
  | case4 => simp at plain
  | case5 behindDigit char rest _ _ ih =>
    rw [ih fun member => plain (List.mem_cons_of_mem char member), Option.map_some]

namespace Binary64

/-- Ninety-three doublings are less than twenty-eight powers of ten, however often they are taken. -/
theorem two_pow_le_ten_pow {low high : Nat} (times : Nat) (le : 2 ^ low ≤ 10 ^ high) :
    2 ^ (93 * times + low) ≤ 10 ^ (28 * times + high) := by
  -- The bound for one step is that the 93rd power of two is below the 28th of ten.
  rw [Nat.pow_add, Nat.pow_add, Nat.pow_mul, Nat.pow_mul]
  exact Nat.mul_le_mul (Nat.pow_le_pow_left (by decide) times) le

/-- The rank of infinity has the magnitude that follows the largest finite one. -/
theorem units_rankCount : units rankCount = 2 ^ 1024 * 2 ^ finest := by
  -- The rank behind the last finite one is the first of a spacing, with the least significand there.
  have split : rankCount = 2046 * 2 ^ 52 + 2 ^ 52 := by decide
  rw [split, units_split (by decide) (Or.inr (Nat.le_refl _))]
  simp only [← Nat.pow_add, finest, Nat.reduceAdd]

/-- A natural lies below the power of ten that has one digit more. -/
theorem lt_ten_pow_length (value : Nat) : value < 10 ^ (Nat.toDigits 10 value).length :=
  -- As many places as there are digits are enough for the value.
  (Nat.length_toDigits_le_iff (by decide) Nat.length_toDigits_pos).mp (Nat.le_refl _)

/-- A natural with more digits than places reaches that power of ten. -/
theorem ten_pow_le_of_length {value places : Nat} (positive : 0 < places)
    (longer : places < (Nat.toDigits 10 value).length) : 10 ^ places ≤ value := by
  -- A smaller value would need no more digits than the bound has.
  by_contra below
  have := (Nat.length_toDigits_le_iff (by decide) positive).mpr (Nat.lt_of_not_le below)
  omega

/-- A fraction with so many places that all its digits stand far behind the point is rounded to zero. -/
theorem nearestRank_of_few {value places : Nat}
    (few : (Nat.toDigits 10 value).length + 331 ≤ places) : nearestRank value (10 ^ places) = 0 := by
  -- The fraction is less than half of the finest spacing.
  apply nearestRank_eq_zero
  -- The finest spacing halves one less often than so many places divide it by ten.
  have finer : 2 ^ (finest + 1) ≤ 10 ^ 331 := by
    simpa only [finest, Nat.reduceMul, Nat.reduceAdd] using
      @two_pow_le_ten_pow 52 23 11 (by decide)
  calc 2 * (value * 2 ^ finest) = value * 2 ^ (finest + 1) := by
        rw [Nat.pow_succ', Nat.mul_left_comm]
    _ < 10 ^ (Nat.toDigits 10 value).length * 10 ^ 331 :=
      Nat.mul_lt_mul_of_lt_of_le (lt_ten_pow_length value) finer
        (Nat.lt_of_lt_of_le (Nat.two_pow_pos _) finer)
    _ = 10 ^ ((Nat.toDigits 10 value).length + 331) := by rw [Nat.pow_add]
    _ ≤ 10 ^ places := Nat.pow_le_pow_right (by decide) few

/-- A fraction with many digits before the point is rounded beyond the finite numbers. -/
theorem le_nearestRank_of_many {value places : Nat}
    (many : 310 + places < (Nat.toDigits 10 value).length) :
    rankCount ≤ nearestRank value (10 ^ places) := by
  -- The fraction is at least the magnitude behind the last finite one.
  apply le_nearestRank (Nat.pow_pos (by decide))
  have reached : 2 ^ 1024 ≤ 10 ^ 310 := by
    simpa only [Nat.reduceMul, Nat.reduceAdd] using @two_pow_le_ten_pow 1 2 11 (by decide)
  calc units rankCount * 10 ^ places = 2 ^ 1024 * 10 ^ places * 2 ^ finest := by
        rw [units_rankCount, Nat.mul_right_comm]
    _ ≤ 10 ^ 310 * 10 ^ places * 2 ^ finest :=
      Nat.mul_le_mul_right _ (Nat.mul_le_mul_right _ reached)
    _ = 10 ^ (310 + places) * 2 ^ finest := by rw [← Nat.pow_add]
    _ ≤ value * 2 ^ finest :=
      Nat.mul_le_mul_right _ (ten_pow_le_of_length (by omega) many)

/-- Scientific notation with a point before so many digits is the fraction over that power of ten. -/
theorem ofScientific_places (negative : Bool) (value places : Nat) :
    ofScientific negative value (0 - places) = ofFraction negative value (10 ^ places) := by
  -- The cases are those of the library, whose two shortcuts give what rounding gives there.
  rw [ofScientific]
  split
  · rename_i tiny
    -- Zero and what is far below the least number are rounded to zero without the power.
    simp only [Bool.or_eq_true, decide_eq_true_eq] at tiny
    rcases tiny with rfl | small
    · rw [ofFraction, nearestRank_eq_zero (by simp)]
    · rw [ofFraction, nearestRank_of_few (by omega)]
  split
  · rename_i huge
    rw [ofFraction, ofRank_of_le negative (le_nearestRank_of_many (by omega))]
  split
  · -- Otherwise the power is computed, and it is the one that the places give.
    rw [Nat.pow_eq, show (0 - (places : Int)).natAbs = places by omega]
  · obtain rfl : places = 0 := by omega
    simp

end Binary64

namespace Literal

/-- A literal is a numeral, and read as one it is the same number. -/
theorem readNumeral_chars (literal : Literal) :
    readNumeral literal.chars = some (readLiteral literal.chars) := by
  -- Nothing is changed or taken out before the number is read.
  have common : literal.chars.map commonDigit = literal.chars :=
    (List.map_congr_left fun char member => (literal.plain char member).1).trans (List.map_id _)
  have dense := stripSpace_eq_self fun char member => (literal.plain char member).2.1
  have plain := dropUnderscores_eq_some false fun member => (literal.plain '_' member).2.2 rfl
  have decimal : splitDecimal (literal.whole ++ literal.tail) =
      (literal.whole ++ literal.tail, []) := by
    simpa using @literal.splitDecimal_append [] (by simp [Stops])
  have filled : (literal.whole ++ literal.places == []) = false := by simp [literal.opens]
  -- The parts of the literal are found as its own reader finds them, and nothing follows them.
  have parts : splitSign literal.chars = (literal.sign.toList, literal.whole ++ literal.tail) :=
    literal.splitSign_append literal.tail
  simp only [readNumeral, common, dense, plain, parts, decimal, splitWhile_whole, drop_tail, filled,
    sign_eq_minus, readExponent, Bind.bind, Option.bind, Pure.pure, Bool.false_eq_true, if_false]
  rw [Binary64.ofScientific_places, readLiteral_chars, numerator, denominator]

end Literal

end Sexpr
