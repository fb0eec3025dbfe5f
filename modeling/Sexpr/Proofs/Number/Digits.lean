import Sexpr.Proofs.Number.Text

/-! The digits of numbers: which of them are zero, and which ones count. -/

namespace Sexpr

/-- A row of digits without the zeros at its ends. -/
def trimZeros (digits : List Char) : List Char :=
  ((digits.dropWhile (· == '0')).reverse.dropWhile (· == '0')).reverse

/-- The digits of a literal that count, from the first one to the last one that is not zero. -/
def Literal.significant (literal : Literal) : List Char := trimZeros (literal.whole ++ literal.places)

/-- A literal that is written without a plus, without a zero in front of another digit before the point, and
with a last digit behind the point that is not zero. -/
structure Literal.Tidy (literal : Literal) : Prop where
  sign : literal.sign ≠ some '+'
  whole : literal.whole.head? = some '0' → literal.whole = ['0']
  fraction : ∀ places ∈ literal.fraction, ∃ last, places.getLast? = some last ∧ last ≠ '0'

/-- Without its zeros in front a row of digits goes on with something else. -/
theorem dropWhile_zeros_append {count : Nat} {digits : List Char} (opens : digits.head? ≠ some '0') :
    (List.replicate count '0' ++ digits).dropWhile (· == '0') = digits := by
  -- The zeros are dropped, and the first digit behind them is none.
  rw [List.dropWhile_append_of_pos (fun char member => by simpa using List.eq_of_mem_replicate member)]
  cases digits with
  | nil => rfl
  | cons digit digits =>
    have notZero : digit ≠ '0' := by simpa using opens
    simp [notZero]

/-- Nothing but zeros is left out. -/
theorem exists_zeros (digits : List Char) : ∃ front behind,
    digits = List.replicate front '0' ++ (trimZeros digits ++ List.replicate behind '0') := by
  -- At either end the longest run of zeros is taken off, and a run of zeros is known by its length.
  have zeros (row : List Char) : ∃ count, row.takeWhile (· == '0') = List.replicate count '0' :=
    ⟨_, List.eq_replicate_of_mem fun char member => by
      simpa using List.all_eq_true.mp List.all_takeWhile char member⟩
  obtain ⟨front, first⟩ := zeros digits
  obtain ⟨behind, last⟩ := zeros (digits.dropWhile (· == '0')).reverse
  refine ⟨front, behind, ?_⟩
  rw [← first, trimZeros, ← List.reverse_replicate, ← last, ← List.reverse_append,
    List.takeWhile_append_dropWhile, List.reverse_reverse, List.takeWhile_append_dropWhile]

/-- What digits spell is less than the power of ten with as many zeros. -/
theorem digitsValue_lt {digits : List Char} (each : ∀ char ∈ digits, char.isDigit = true) :
    digitsValue digits < 10 ^ digits.length := by
  -- The induction is on the digits, of which the first one weighs more than all others together.
  induction digits with
  | nil => decide
  | cons digit digits ih =>
    obtain ⟨isDigit, others⟩ := List.forall_mem_cons.mp each
    have small : digit.toNat - '0'.toNat < 10 := by
      have bounds : 48 ≤ digit.toNat ∧ digit.toNat ≤ 57 := Char.isDigit_iff_toNat.mp isDigit
      change digit.toNat - 48 < 10
      omega
    have rest := ih others
    rw [digitsValue, Nat.ofDigitChars_cons, Nat.ofDigitChars_eq_ofDigitChars_zero, List.length_cons,
      Nat.pow_succ]
    rw [digitsValue] at rest
    -- The first digit stands for at most nine times a power of ten that the others stay below.
    calc 10 ^ digits.length * (10 * 0 + (digit.toNat - '0'.toNat)) + Nat.ofDigitChars 10 digits 0
        < 10 ^ digits.length * (10 * 0 + (digit.toNat - '0'.toNat)) + 10 ^ digits.length := by omega
      _ = 10 ^ digits.length * (digit.toNat - '0'.toNat + 1) := by ring
      _ ≤ 10 ^ digits.length * 10 := Nat.mul_le_mul_left _ (by omega)

/-- Zeros behind digits multiply by ten. -/
theorem digitsValue_zeros (front behind : Nat) (digits : List Char) :
    digitsValue (List.replicate front '0' ++ (digits ++ List.replicate behind '0')) =
      digitsValue digits * 10 ^ behind := by
  -- Zeros in front add nothing, and each one behind multiplies by ten.
  rw [digitsValue, Nat.ofDigitChars_append, Nat.ofDigitChars_replicate_zero, Nat.mul_zero,
    Nat.ofDigitChars_append, Nat.ofDigitChars_replicate_zero, Nat.mul_comm]
  rfl

/-- The digits that count spell the numerator but for its zeros at the end. -/
theorem Literal.numerator_eq (literal : Literal) : ∃ factor zeros,
    literal.numerator = factor * 10 ^ zeros ∧ factor < 10 ^ literal.significant.length := by
  -- The digits of the literal are zeros, the digits that count, and zeros again.
  obtain ⟨front, behind, same⟩ := exists_zeros (literal.whole ++ literal.places)
  refine ⟨digitsValue literal.significant, behind, ?_, digitsValue_lt ?_⟩
  · rw [numerator, same, digitsValue_zeros]
    rfl
  · -- The digits that count are among those of the literal.
    intro char member
    have inside : char ∈ literal.whole ++ literal.places := by
      rw [same]
      exact List.mem_append_right _ (List.mem_append_left _ member)
    rcases List.mem_append.mp inside with whole | place
    · exact literal.digits char whole
    · cases written : literal.fraction with
      | none => simp [places, written] at place
      | some digits =>
        simp only [places, written, Option.getD_some] at place
        exact literal.fractionDigits digits written char place

theorem digitChar_ne_zero {digit : Nat} (positive : 0 < digit) (small : digit < 10) :
    digit.digitChar ≠ '0' :=
  -- There are ten digits to look at.
  (by decide : ∀ digit < 10, 0 < digit → digit.digitChar ≠ '0') digit small positive

/-- The last digit of a natural is its remainder. -/
theorem getLast?_toDigits (natural : Nat) :
    (Nat.toDigits 10 natural).getLast? = some (natural % 10).digitChar := by
  -- A single digit is its own remainder, and to more digits the remainder is added last.
  rw [Nat.toDigits_eq_if (by decide)]
  split
  · rename_i small
    rw [Nat.mod_eq_of_lt small]
    rfl
  · exact List.getLast?_concat

/-- The first digit of a natural is not zero, unless it is the only one. -/
theorem head?_toDigits {natural : Nat} (positive : 0 < natural) :
    (Nat.toDigits 10 natural).head? ≠ some '0' := by
  -- The induction follows the digits, which are those of the quotient by ten and one more.
  induction natural using Nat.strongRecOn with
  | ind natural ih =>
    rw [Nat.toDigits_eq_if (by decide)]
    split
    · rename_i small
      simpa using digitChar_ne_zero positive small
    · -- The first digit is that of the quotient.
      rw [List.head?_append, Option.or_of_isSome (by simp [Nat.toDigits_ne_nil])]
      exact ih (natural / 10) (by omega) (by omega)

namespace Literal

variable (negative : Bool) {places numerator : Nat}

/-- The digits that count are those of the numerator, if the last one of these is not zero. -/
theorem significant_ofPlaces (notZero : numerator % 10 ≠ 0) :
    (ofPlaces negative places numerator).significant = Nat.toDigits 10 numerator := by
  -- Only the zeros that pad the digits are left out, as neither end of the digits is one.
  have front : (Nat.toDigits 10 numerator).head? ≠ some '0' := head?_toDigits (by omega)
  have last : (Nat.toDigits 10 numerator).reverse.head? ≠ some '0' := by
    rw [List.head?_reverse, getLast?_toDigits]
    simpa using digitChar_ne_zero (by omega) (Nat.mod_lt numerator (by decide))
  have all : (ofPlaces negative places numerator).whole ++ (ofPlaces negative places numerator).places =
      paddedDigits places numerator := by
    rw [places_ofPlaces]
    exact List.take_append_drop _ _
  rw [significant, all, trimZeros, paddedDigits, dropWhile_zeros_append front]
  have unpadded := @dropWhile_zeros_append 0 _ last
  rw [List.replicate_zero, List.nil_append] at unpadded
  rw [unpadded, List.reverse_reverse]

/-- Before the point stands a single zero or a digit that is not zero. -/
theorem frontDigits_tidy (places numerator : Nat) (zero : (frontDigits places numerator).head? = some '0') :
    frontDigits places numerator = ['0'] := by
  -- The digits are padded only as far as the places need them, so it matters whether there are more digits than
  -- places.
  rcases Nat.lt_or_ge places (Nat.toDigits 10 numerator).length with many | few
  · -- The digits are not padded, so only zero itself begins with a zero.
    have unpadded : paddedDigits places numerator = Nat.toDigits 10 numerator := by
      simp [paddedDigits, show places + 1 - (Nat.toDigits 10 numerator).length = 0 by omega]
    rw [frontDigits, unpadded] at zero ⊢
    rw [List.head?_take, if_neg (by omega)] at zero
    obtain rfl : numerator = 0 := by
      by_contra positive
      exact head?_toDigits (Nat.pos_of_ne_zero positive) zero
    rw [Nat.toDigits_zero] at many ⊢
    obtain rfl : places = 0 := by simpa using many
    rfl
  · -- All digits stand behind the point, and one zero in front of it.
    have zeros : places + 1 - (Nat.toDigits 10 numerator).length =
        places - (Nat.toDigits 10 numerator).length + 1 := by omega
    have one : (paddedDigits places numerator).length - places = 1 := by
      simp only [paddedDigits, List.length_append, List.length_replicate]
      omega
    rw [frontDigits, one, paddedDigits, zeros, List.replicate_succ]
    rfl

/-- A positional text is tidy if it has no places or its last digit is not zero. -/
theorem tidy_ofPlaces (last : places = 0 ∨ numerator % 10 ≠ 0) :
    (ofPlaces negative places numerator).Tidy where
  -- A literal is tidy by its sign, the digits in front of its point and the ones behind, and each is as the
  -- digits of the numerator have it.
  sign := by cases negative <;> simp [ofPlaces, minusSign]
  whole := frontDigits_tidy places numerator
  fraction := by
    intro digits written
    change digits ∈ pointDigits places numerator at written
    rw [pointDigits] at written
    split at written
    · cases written
    · rename_i pointed
      cases written
      -- The last place is the last digit of the numerator.
      have filled : numerator % 10 ≠ 0 := last.resolve_left pointed
      refine ⟨_, ?_, digitChar_ne_zero (Nat.pos_of_ne_zero filled) (Nat.mod_lt numerator (by decide))⟩
      rw [List.getLast?_drop, if_neg (by have := lt_length_paddedDigits places numerator; omega), paddedDigits,
        List.getLast?_append, getLast?_toDigits]
      rfl

end Literal

end Sexpr
