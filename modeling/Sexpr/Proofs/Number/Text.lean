import Sexpr.Number.Text
import Sexpr.Proofs.Number.Literal

/-! The text of a finite number is a literal that reads back as the number, but for the sign of zero. -/

namespace Sexpr

/-- Leading zeros do not change the natural that digits spell. -/
theorem digitsValue_padded (count numerator : Nat) :
    digitsValue (List.replicate count '0' ++ Nat.toDigits 10 numerator) = numerator := by
  -- The zeros leave the value at zero, and the digits of a numerator spell it.
  rw [digitsValue, Nat.ofDigitChars_append, Nat.ofDigitChars_replicate_zero, Nat.mul_zero,
    Nat.ofDigitChars_ten_toDigits]

namespace Binary64

/-- The number without the sign that zero may have. -/
def dropZeroSign : Binary64 → Binary64
  | .finite negative rank inRange => .finite (negative && rank != 0) rank inRange
  | number => number

/-- A fraction that is whole is the first of the two naturals that enclose it. -/
theorem enclosing_of_dvd {numerator denominator : Nat} (positive : 0 < denominator)
    (whole : denominator ∣ numerator) :
    enclosing numerator denominator =
      [numerator / denominator, numerator / denominator + 1] := by
  -- Without a remainder the quotient itself is nearer.
  have remainder := Nat.mod_eq_zero_of_dvd whole
  simp [enclosing, remainder, positive]

/-- The numerator that is looked for, with the powers written as arithmetic knows them. -/
theorem numeratorAt?_eq (rank places : Nat) : numeratorAt? rank places =
    (enclosing (units rank * 10 ^ places) (2 ^ finest)).find? fun numerator =>
      nearestRank numerator (10 ^ places) == rank := by
  -- The definition names the power function, and the theory writes it as a power.
  simp only [numeratorAt?, Nat.pow_eq]

/-- The integer that a finite number equals, with the power written as arithmetic knows it. -/
theorem toInt?_finite (negative : Bool) {rank : Nat} (inRange : rank < rankCount) :
    (Binary64.finite negative rank inRange).toInt? =
      if units rank % 2 ^ finest = 0 then some (signed negative (units rank / 2 ^ finest))
      else none := by
  -- The definition names the power function, and the theory writes it as a power.
  simp only [toInt?, Nat.pow_eq]

/-- As many places as the finest spacing halves write every magnitude exactly. -/
theorem numeratorAt?_finest (rank : Nat) : (numeratorAt? rank finest).isSome = true := by
  -- Ten to that power is a multiple of two to it, so no remainder is left.
  have whole : 2 ^ finest ∣ units rank * 10 ^ finest :=
    Nat.dvd_mul_left_of_dvd (pow_dvd_pow_of_dvd (by decide) finest) _
  have exact : nearestRank (units rank * 10 ^ finest / 2 ^ finest) (10 ^ finest) = rank :=
    nearestRank_of_eq (Nat.pow_pos (by decide)) (Nat.div_mul_cancel whole).symm
  rw [numeratorAt?_eq, enclosing_of_dvd (Nat.two_pow_pos finest) whole, List.find?_cons_of_pos]
  · rfl
  · simpa using exact

/-- A numerator that is found reads back as the rank. -/
theorem nearestRank_of_numeratorAt? {rank places numerator : Nat}
    (hit : numeratorAt? rank places = some numerator) :
    nearestRank numerator (10 ^ places) = rank := by
  -- The search takes nothing that does not read back.
  rw [numeratorAt?_eq, List.find?_eq_some_iff_append] at hit
  exact beq_iff_eq.mp hit.1

/-- The fewest places have a numerator, and no fewer places have one. -/
theorem fewestPlaces_spec (rank : Nat) :
    numeratorAt? rank (fewestPlaces rank).1 = some (fewestPlaces rank).2 ∧
      ∀ places < (fewestPlaces rank).1, numeratorAt? rank places = none := by
  -- The search ends at the latest where the magnitude is written exactly.
  have last : ((numeratorAt? rank finest).map (finest, ·)).isSome = true := by
    rw [Option.isSome_map]
    exact numeratorAt?_finest rank
  have ends : ((List.range (finest + 1)).findSome? fun places =>
      (numeratorAt? rank places).map (places, ·)).isSome = true :=
    List.findSome?_isSome_iff.mpr ⟨finest, List.mem_range.mpr (Nat.lt_add_one finest), last⟩
  obtain ⟨found, search⟩ := Option.isSome_iff_exists.mp ends
  obtain ⟨before, places, behind, row, paired, missed⟩ := List.findSome?_eq_some_iff.mp search
  obtain ⟨numerator, hit, rfl⟩ := Option.map_eq_some_iff.mp paired
  -- What the search finds first is what the definition returns.
  have same : fewestPlaces rank = (places, numerator) := by
    rw [fewestPlaces, search, Option.getD_some]
  rw [same]
  refine ⟨hit, fun fewer less => ?_⟩
  -- Fewer places were looked at before, as the search goes upwards.
  have upwards : (before ++ places :: behind).Pairwise (· < ·) := row ▸ List.pairwise_lt_range
  have searched : fewer ∈ before ++ places :: behind := by
    have inRange : places ∈ List.range (finest + 1) := by simp [row]
    rw [← row, List.mem_range]
    exact Nat.lt_trans less (List.mem_range.mp inRange)
  rcases List.mem_append.mp searched with early | late
  · exact Option.map_eq_none_iff.mp (missed fewer early)
  · have later := (List.pairwise_append.mp upwards).2.1
    rcases List.mem_cons.mp late with rfl | late
    · exact absurd less (Nat.lt_irrefl _)
    · exact absurd (List.rel_of_pairwise_cons later late) (Nat.lt_asymm less)

/-- The fewest places have a numerator that reads back as the rank. -/
theorem nearestRank_fewestPlaces (rank : Nat) :
    nearestRank (fewestPlaces rank).2 (10 ^ (fewestPlaces rank).1) = rank :=
  -- The search ends at what reads back.
  nearestRank_of_numeratorAt? (fewestPlaces_spec rank).1

end Binary64

/-- The digits of a numerator, with zeros in front where there are not more of them than places. -/
def paddedDigits (places numerator : Nat) : List Char :=
  let digits := Nat.toDigits 10 numerator
  List.replicate (places + 1 - digits.length) '0' ++ digits

/-- A digit stands in front of the places. -/
theorem lt_length_paddedDigits (places numerator : Nat) :
    places < (paddedDigits places numerator).length := by
  -- The zeros in front make up for the digits that are missing.
  simp only [paddedDigits, List.length_append, List.length_replicate]
  omega

theorem isDigit_of_mem_paddedDigits {places numerator : Nat} {char : Char}
    (member : char ∈ paddedDigits places numerator) : char.isDigit = true := by
  -- Both the zeros and the digits of the numerator are digits.
  rcases List.mem_append.mp member with zero | digit
  · rw [List.eq_of_mem_replicate zero]
    decide
  · exact Nat.isDigit_of_mem_toDigits (by decide) (by decide) digit

/-- The digits in front of the point. -/
def frontDigits (places numerator : Nat) : List Char :=
  (paddedDigits places numerator).take ((paddedDigits places numerator).length - places)

/-- The digits behind the point, which is not written without them. -/
def pointDigits (places numerator : Nat) : Option (List Char) :=
  if places = 0 then none
  else some ((paddedDigits places numerator).drop ((paddedDigits places numerator).length - places))

theorem frontDigits_ne_nil (places numerator : Nat) : frontDigits places numerator ≠ [] := by
  -- There are more digits than places, so some are left in front.
  have size := lt_length_paddedDigits places numerator
  rw [frontDigits, ne_eq, List.take_eq_nil_iff, ← List.length_eq_zero_iff]
  omega

theorem isDigit_of_mem_frontDigits {places numerator : Nat} :
    ∀ char ∈ frontDigits places numerator, char.isDigit = true := by
  intro char member
  exact isDigit_of_mem_paddedDigits (List.mem_of_mem_take member)

theorem isDigit_of_mem_pointDigits {places numerator : Nat} :
    ∀ digits ∈ pointDigits places numerator, ∀ char ∈ digits, char.isDigit = true := by
  -- If any are written, they are among the padded digits.
  intro digits written char member
  rw [pointDigits] at written
  split at written
  · -- Without places nothing is written.
    cases written
  · cases written
    exact isDigit_of_mem_paddedDigits (List.mem_of_mem_drop member)

/-- The sign that a negative number is written with. -/
def minusSign (negative : Bool) : Option Char := if negative then some '-' else none

theorem isSign_of_mem_minusSign {negative : Bool} :
    ∀ char ∈ minusSign negative, isSign char = true := by
  cases negative <;> simp [minusSign, isSign]

namespace Literal

/-- The literal with a numerator over ten to the given places. Without places there is no point. -/
def ofPlaces (negative : Bool) (places numerator : Nat) : Literal where
  sign := minusSign negative
  whole := frontDigits places numerator
  fraction := pointDigits places numerator
  signed := isSign_of_mem_minusSign
  opens := frontDigits_ne_nil places numerator
  digits := isDigit_of_mem_frontDigits
  fractionDigits := isDigit_of_mem_pointDigits

variable (negative : Bool) (places numerator : Nat)

/-- A positional text with its sign is a literal. -/
theorem chars_ofPlaces : (ofPlaces negative places numerator).chars =
    (if negative then ['-'] else []) ++ Binary64.positional places numerator := by
  -- The positional text is the digits in front and, if there are places, a point and the digits behind.
  have written : Binary64.positional places numerator =
      (ofPlaces negative places numerator).whole ++ (ofPlaces negative places numerator).tail := by
    -- Without places there is no point, and all digits stand in front.
    by_cases alone : places = 0
    · simp only [Binary64.positional, tail, ofPlaces, frontDigits, pointDigits, alone, if_true,
        List.append_nil, Nat.sub_zero, List.take_length, paddedDigits]
    · simp only [Binary64.positional, tail, ofPlaces, frontDigits, pointDigits, alone, if_false,
        paddedDigits]
  rw [chars, written]
  cases negative <;> rfl

theorem negative_ofPlaces : (ofPlaces negative places numerator).negative = negative := by
  cases negative <;> rfl

/-- The digits behind the point are the last ones. -/
theorem places_ofPlaces : (ofPlaces negative places numerator).places =
    (paddedDigits places numerator).drop ((paddedDigits places numerator).length - places) := by
  -- Without places nothing is left behind the digits in front.
  by_cases alone : places = 0 <;> simp [Literal.places, ofPlaces, pointDigits, alone]

theorem numerator_ofPlaces : (ofPlaces negative places numerator).numerator = numerator := by
  -- The digits in front and behind together are the padded ones.
  have front : (ofPlaces negative places numerator).whole = frontDigits places numerator := rfl
  rw [Literal.numerator, places_ofPlaces, front, frontDigits, List.take_append_drop]
  exact digitsValue_padded _ numerator

theorem denominator_ofPlaces : (ofPlaces negative places numerator).denominator = 10 ^ places := by
  -- As many digits stand behind the point as there are places.
  have size := lt_length_paddedDigits places numerator
  rw [denominator, places_ofPlaces, List.length_drop]
  congr 1
  omega

/-- A positional text denotes the number whose rank its numerator is nearest to. -/
theorem denotes_ofPlaces {negative : Bool} {rank places numerator : Nat}
    (inRange : rank < Binary64.rankCount)
    (read : Binary64.nearestRank numerator (10 ^ places) = rank) :
    (ofPlaces negative places numerator).Denotes (.finite negative rank inRange) := by
  -- Rounding the numerator over the denominator finds the nearest rank.
  have nearest : Binary64.IsNearest rank (ofPlaces negative places numerator).numerator
      (ofPlaces negative places numerator).denominator := by
    rw [numerator_ofPlaces, denominator_ofPlaces, ← read]
    exact Binary64.nearestRank_isNearest numerator (Nat.pow_pos (by decide))
  simpa only [negative_ofPlaces] using Denotes.finite inRange nearest

end Literal

namespace Binary64

/-- Without places the digits stand alone. -/
theorem positional_zero (numerator : Nat) : positional 0 numerator = Nat.toDigits 10 numerator := by
  -- A numerator has at least one digit, so no zero is put in front.
  have size := List.length_pos_iff.mpr (@Nat.toDigits_ne_nil numerator 10)
  have unpadded : 0 + 1 - (Nat.toDigits 10 numerator).length = 0 := by omega
  simp [positional, unpadded]

/-- Only the least rank has no magnitude. -/
theorem units_eq_zero {rank : Nat} : units rank = 0 ↔ rank = 0 :=
  -- The magnitudes increase from that of the rank zero.
  units_strictMono.injective.eq_iff' (Nat.zero_mul _)

/-- The magnitude of an integer with a sign. -/
theorem natAbs_signed (negative : Bool) (magnitude : Nat) :
    (signed negative magnitude).natAbs = magnitude := by
  cases negative <;> simp [signed]

/-- An integer with a sign is negative if it is not zero. -/
theorem signed_lt_zero (negative : Bool) (magnitude : Nat) :
    signed negative magnitude < 0 ↔ (negative && magnitude != 0) = true := by
  -- Only a minus in front of a magnitude makes an integer negative.
  cases negative
  · simp [signed]
  · simpa [signed] using Nat.pos_iff_ne_zero

variable {rank : Nat}

/-- A number whose magnitude is an integer is written with that integer. -/
theorem toChars_of_whole (negative : Bool) (inRange : rank < rankCount) (whole : units rank % 2 ^ finest = 0) :
    (Binary64.finite negative rank inRange).toChars =
      (Literal.ofPlaces (negative && rank != 0) 0 (units rank / 2 ^ finest)).chars := by
  -- An integer is a literal without places.
  have exact : units rank = units rank / 2 ^ finest * 2 ^ finest :=
    (Nat.div_mul_cancel (Nat.dvd_of_mod_eq_zero whole)).symm
  -- The integer has a sign unless it is zero.
  have same : (units rank / 2 ^ finest != 0) = (rank != 0) := by
    rw [Bool.eq_iff_iff, bne_iff_ne, bne_iff_ne, not_iff_not, ← @units_eq_zero rank]
    constructor
    · intro zero
      rw [exact, zero, Nat.zero_mul]
    · intro zero
      rw [zero, Nat.zero_div]
  rw [toChars, toInt?_finite, Literal.chars_ofPlaces, positional_zero, if_pos whole, finiteChars, natAbs_signed]
  simp only [signed_lt_zero, same]

/-- Any other finite number is written with the fewest places. -/
theorem toChars_of_not_whole (negative : Bool) (inRange : rank < rankCount)
    (notWhole : units rank % 2 ^ finest ≠ 0) :
    (Binary64.finite negative rank inRange).toChars =
      (Literal.ofPlaces negative (fewestPlaces rank).1 (fewestPlaces rank).2).chars := by
  -- Without an integer to write, the fewest places are searched for.
  rw [toChars, toInt?_finite, Literal.chars_ofPlaces, if_neg notWhole, finiteChars]

/-- The text of a finite number is a literal that denotes it, but for the sign of zero. -/
theorem toChars_denotes {number : Binary64} (finite : number.isFinite = true) :
    ∃ literal : Literal, literal.chars = number.toChars ∧
      literal.Denotes number.dropZeroSign := by
  -- The number is an integer or has places, and each way of writing it reads back.
  obtain ⟨negative, rank, inRange, rfl⟩ := exists_finite finite
  rw [dropZeroSign]
  by_cases whole : units rank % 2 ^ finest = 0
  · -- The integer over one is exactly the magnitude.
    have read : nearestRank (units rank / 2 ^ finest) (10 ^ 0) = rank := by
      refine nearestRank_of_eq (Nat.pow_pos (by decide)) ?_
      rw [Nat.pow_zero, Nat.mul_one, Nat.div_mul_cancel (Nat.dvd_of_mod_eq_zero whole)]
    exact ⟨_, (toChars_of_whole negative inRange whole).symm, Literal.denotes_ofPlaces inRange read⟩
  · -- Zero is whole, so the sign stays.
    have nonzero : (rank != 0) = true := by
      rw [bne_iff_ne]
      intro zero
      exact whole (by simp [zero, units_eq])
    rw [nonzero, Bool.and_true]
    exact ⟨_, (toChars_of_not_whole negative inRange whole).symm,
      Literal.denotes_ofPlaces inRange (nearestRank_fewestPlaces rank)⟩

/-- Zero is written without a sign. -/
theorem text_zero (negative : Bool) (inRange : 0 < rankCount) :
    (Binary64.finite negative 0 inRange).text = "0" := by
  -- Both zeros equal the one integer without a sign.
  have whole : (Binary64.finite negative 0 inRange).toInt? = some 0 := by
    rw [toInt?_finite, if_pos (by simp [units_eq])]
    cases negative <;> simp [signed, units_eq]
  rw [text, toChars, whole, finiteChars]
  rfl

/-- Without the sign of zero a number has the same text. -/
theorem text_dropZeroSign (number : Binary64) : number.dropZeroSign.text = number.text := by
  -- Only a finite number has a zero whose sign could be dropped.
  cases number with
  | nan => rfl
  | infinity => rfl
  | finite negative rank inRange =>
    by_cases zero : rank = 0
    · -- Zero is written alike with either sign, and other numbers keep theirs.
      subst zero
      rw [dropZeroSign, text_zero, text_zero]
    · rw [dropZeroSign, bne_iff_ne.mpr zero, Bool.and_true]

/-- Without the sign of zero a finite number is numerically the same. -/
theorem agrees_dropZeroSign {number : Binary64} (finite : number.isFinite = true) :
    number.dropZeroSign.agrees number = true := by
  -- Only a finite number has a zero whose sign could be dropped.
  obtain ⟨negative, rank, inRange, rfl⟩ := exists_finite finite
  -- Numeric equality does not look at the sign of zero.
  by_cases zero : rank = 0 <;> simp [dropZeroSign, agrees, zero]

end Binary64

end Sexpr
