import Sexpr.Node.Text
import Sexpr.Proofs.Number.Digits
import Sexpr.Proofs.Number.Rounding
import Sexpr.Proofs.Token.Reads

/-! The text of a finite number is tidy, reads back as the number, and has the fewest digits that do. -/

namespace Sexpr

namespace Binary64

/-- The value of a finite number, counted in units of the finest spacing. -/
def scaled : Binary64 → Int
  | .finite negative rank _ => signed negative (units rank)
  | _ => 0

/-- The two naturals that enclose a fraction are its quotient and the next one. -/
theorem mem_enclosing {numerator denominator natural : Nat} : natural ∈ enclosing numerator denominator ↔
    natural = numerator / denominator ∨ natural = numerator / denominator + 1 := by
  -- The nearer one comes first, but the two members are the same.
  simp only [enclosing]
  split <;> simp [or_comm]

variable {rank places numerator : Nat}

/-- A magnitude is rounded to its own rank. -/
theorem nearestRank_units (rank : Nat) : nearestRank (units rank) (2 ^ finest) = rank :=
  -- The magnitude of a rank over its own spacing is exact.
  nearestRank_of_eq (Nat.two_pow_pos finest) rfl

/-- Of the two naturals that enclose a magnitude, the one on the side of a numerator that reads back does so as
well. -/
theorem nearestRank_enclosing (reads : nearestRank numerator (10 ^ places) = rank) :
    numerator ≤ units rank * 10 ^ places / 2 ^ finest ∧
        nearestRank (units rank * 10 ^ places / 2 ^ finest) (10 ^ places) = rank ∨
      units rank * 10 ^ places / 2 ^ finest + 1 ≤ numerator ∧
        nearestRank (units rank * 10 ^ places / 2 ^ finest + 1) (10 ^ places) = rank := by
  -- Rounding is monotone, so whatever lies between two fractions that read back reads back too.
  have tens : 0 < 10 ^ places := Nat.pow_pos (by decide)
  have twos : 0 < 2 ^ finest := Nat.two_pow_pos finest
  have exact := nearestRank_units rank
  have division := Nat.div_add_mod (units rank * 10 ^ places) (2 ^ finest)
  have remainder := Nat.mod_lt (units rank * 10 ^ places) twos
  -- It lies between that numerator and the magnitude, and is rounded as these are.
  generalize units rank * 10 ^ places / 2 ^ finest = quotient at *
  rw [Nat.mul_comm] at division
  rcases Nat.lt_or_ge quotient numerator with above | below
  · refine Or.inr ⟨above, Nat.le_antisymm ?_ ?_⟩
    · exact (nearestRank_mono tens tens (Nat.mul_le_mul_right _ above)).trans_eq reads
    · refine exact.symm.trans_le (nearestRank_mono twos tens ?_)
      rw [Nat.add_mul]
      omega
  · refine Or.inl ⟨below, Nat.le_antisymm ?_ ?_⟩
    · exact (nearestRank_mono tens twos (by omega)).trans_eq exact
    · exact reads.symm.trans_le (nearestRank_mono tens tens (Nat.mul_le_mul_right _ below))

/-- Where any numerator reads back as a rank, the search finds one. -/
theorem numeratorAt?_isSome (reads : nearestRank numerator (10 ^ places) = rank) :
    (numeratorAt? rank places).isSome = true := by
  -- One of the two naturals that are looked at reads back as well.
  rw [numeratorAt?_eq, List.find?_isSome]
  simp only [mem_enclosing, beq_iff_eq]
  rcases nearestRank_enclosing reads with ⟨-, below⟩ | ⟨-, above⟩
  · exact ⟨_, Or.inl rfl, below⟩
  · exact ⟨_, Or.inr rfl, above⟩

/-- A search among two values finds the first one, or the second one where the first does not do. -/
theorem eq_of_find?_pair {holds : Nat → Bool} {first second found : Nat}
    (hit : [first, second].find? holds = some found) :
    found = first ∨ holds first = false ∧ found = second := by
  -- The second value is looked at only where the first is passed over.
  cases does : holds first with
  | true =>
    rw [List.find?_cons_of_pos does, Option.some.injEq] at hit
    exact Or.inl hit.symm
  | false =>
    rw [List.find?_cons_of_neg (by simp [does]), List.find?_singleton] at hit
    exact Or.inr ⟨rfl, (Option.some.inj (Option.ite_none_right_eq_some.mp hit).2).symm⟩

/-- The search finds the nearer one of the two naturals that enclose a magnitude, or the one on the side of a
numerator that reads back. -/
theorem numeratorAt?_cases {found : Nat} (hit : numeratorAt? rank places = some found)
    (reads : nearestRank numerator (10 ^ places) = rank) :
    let quotient := units rank * 10 ^ places / 2 ^ finest
    let twice := 2 * (units rank * 10 ^ places % 2 ^ finest)
    found = quotient ∧ (numerator ≤ quotient ∨ twice < 2 ^ finest ∨
        twice = 2 ^ finest ∧ quotient % 2 = 0) ∨
      found = quotient + 1 ∧ (quotient + 1 ≤ numerator ∨ 2 ^ finest < twice ∨
        twice = 2 ^ finest ∧ (quotient + 1) % 2 = 0) := by
  -- The cases are which of the two neighbours is nearer and whether the nearer one reads back.
  intro quotient twice
  have side := nearestRank_enclosing reads
  -- The nearer one of the two is looked at first, and the other one only if that does not read back.
  rw [numeratorAt?_eq, enclosing] at hit
  split at hit
  case isTrue nearer =>
    rcases eq_of_find?_pair hit with same | ⟨missed, same⟩
    · exact Or.inl ⟨same, Or.inr (by simpa using nearer)⟩
    · obtain ⟨above, -⟩ := side.resolve_left fun both => beq_eq_false_iff_ne.mp missed both.2
      exact Or.inr ⟨same, Or.inl above⟩
  case isFalse farther =>
    simp only [Bool.or_eq_true, decide_eq_true_eq, Bool.and_eq_true, beq_iff_eq] at farther
    rcases eq_of_find?_pair hit with same | ⟨missed, same⟩
    · exact Or.inr ⟨same, Or.inr (by omega)⟩
    · obtain ⟨below, -⟩ := side.resolve_right fun both => beq_eq_false_iff_ne.mp missed both.2
      exact Or.inl ⟨same, Or.inl below⟩

/-- What the search finds is at least as near to the magnitude as any other numerator that reads back, and is even
where another one is as near. -/
theorem numeratorAt?_nearest {found : Nat} (hit : numeratorAt? rank places = some found)
    (reads : nearestRank numerator (10 ^ places) = rank) :
    offBy rank found (10 ^ places) ≤ offBy rank numerator (10 ^ places) ∧
      (numerator ≠ found →
        offBy rank numerator (10 ^ places) = offBy rank found (10 ^ places) → found % 2 = 0) := by
  -- What is found is the quotient or its successor, and all distances are multiples of the spacing up to the
  -- remainder.
  have looked := numeratorAt?_cases hit reads
  have division := Nat.div_add_mod (units rank * 10 ^ places) (2 ^ finest)
  have remainder := Nat.mod_lt (units rank * 10 ^ places) (Nat.two_pow_pos finest)
  unfold offBy
  generalize units rank * 10 ^ places / 2 ^ finest = quotient at *
  generalize units rank * 10 ^ places % 2 ^ finest = rest at *
  generalize 2 ^ finest = spacing at *
  -- Every natural further on is further on by the spacing at least.
  have apart {near far : Nat} (less : near < far) : near * spacing + spacing ≤ far * spacing := by
    rw [← Nat.succ_mul]
    exact Nat.mul_le_mul_right spacing less
  have next : (quotient + 1) * spacing = quotient * spacing + spacing := Nat.succ_mul quotient spacing
  rw [Nat.mul_comm] at division
  -- On its own side of the magnitude what is found comes first, and on the other side nothing is nearer.
  have order := Nat.lt_trichotomy numerator found
  rcases looked with ⟨rfl, within⟩ | ⟨rfl, within⟩
  · rcases order with less | rfl | more
    · have := apart less
      omega
    · omega
    · have := apart more
      omega
  · rcases order with less | rfl | more
    · have := apart less
      omega
    · omega
    · have := apart more
      omega

/-- What reads back as a rank has at least the fewest places. -/
theorem fewestPlaces_le (reads : nearestRank numerator (10 ^ places) = rank) :
    (fewestPlaces rank).1 ≤ places := by
  -- With fewer places the search would have ended there.
  by_contra fewer
  have found := numeratorAt?_isSome reads
  rw [(fewestPlaces_spec rank).2 places (Nat.lt_of_not_le fewer)] at found
  cases found

/-- A decimal that unique positional notation is documented to give for a rank: it reads back, and no decimal with
fewer places does. Among those with as many places that do, none is nearer to the magnitude, and where another one
is as near the last digit is even. -/
structure IsShortest (rank places numerator : Nat) : Prop where
  reads : nearestRank numerator (10 ^ places) = rank
  fewest : ∀ other digits, nearestRank other (10 ^ digits) = rank → places ≤ digits
  nearest : ∀ other, nearestRank other (10 ^ places) = rank →
    offBy rank numerator (10 ^ places) ≤ offBy rank other (10 ^ places)
  even : ∀ other, nearestRank other (10 ^ places) = rank → other ≠ numerator →
    offBy rank other (10 ^ places) = offBy rank numerator (10 ^ places) → numerator % 2 = 0

/-- The decimal with the fewest places is the one that the notation is documented to give. -/
theorem fewestPlaces_isShortest (rank : Nat) :
    IsShortest rank (fewestPlaces rank).1 (fewestPlaces rank).2 :=
  -- The search ends at the first places at which any decimal reads back, with the nearest one there.
  have hit := (fewestPlaces_spec rank).1
  { reads := nearestRank_fewestPlaces rank
    fewest := fun _ _ reads => fewestPlaces_le reads
    nearest := fun _ reads => (numeratorAt?_nearest hit reads).1
    even := fun _ reads => (numeratorAt?_nearest hit reads).2 }

/-- An integer reads back as a rank of an integer, however many zeros stand behind it. -/
theorem dvd_units_of_reads (reads : nearestRank (numerator * 10 ^ places) (10 ^ places) = rank) :
    2 ^ finest ∣ units rank := by
  -- Such a fraction is an integer, and rounding leaves integers among the integers.
  have tens : 0 < 10 ^ places := Nat.pow_pos (by decide)
  rw [← reads, nearestRank_congr tens Nat.one_pos (by rw [Nat.mul_one])]
  exact dvd_units_nearestRank numerator

section Fractional

variable (fractional : ¬ 2 ^ finest ∣ units rank)
include fractional

/-- A rank that is no integer needs places. -/
theorem fewestPlaces_ne_zero : (fewestPlaces rank).1 ≠ 0 := by
  -- Without places the number that reads back is an integer.
  intro none
  have reads := nearestRank_fewestPlaces rank
  rw [none, ← Nat.mul_one (fewestPlaces rank).2, ← Nat.pow_zero 10] at reads
  exact fractional (dvd_units_of_reads reads)

/-- The last of the fewest places is not zero. -/
theorem fewestPlaces_last : (fewestPlaces rank).2 % 10 ≠ 0 := by
  -- The last digit cannot be a zero, as the search would have stopped one place earlier.
  intro zero
  -- Without that zero the same number would have fewer places.
  have placed := fewestPlaces_ne_zero fractional
  have reads := nearestRank_fewestPlaces rank
  obtain ⟨fewer, same⟩ := Nat.exists_eq_succ_of_ne_zero placed
  obtain ⟨shorter, split⟩ := Nat.dvd_of_mod_eq_zero zero
  have shorterReads : nearestRank shorter (10 ^ fewer) = rank := by
    rw [← reads, same, split]
    refine nearestRank_congr (Nat.pow_pos (by decide)) (Nat.pow_pos (by decide)) ?_
    rw [Nat.pow_succ]
    ring
  have := fewestPlaces_le shorterReads
  omega

/-- A decimal that reads back as the rank has at least as many digits as the one with the fewest places. -/
theorem length_le_of_reads (reads : nearestRank numerator (10 ^ places) = rank) {digits : Nat}
    (bound : numerator < 10 ^ digits) : (Nat.toDigits 10 (fewestPlaces rank).2).length ≤ digits := by
  -- If the search had found more digits than these, a power of ten with fewer places would lie between the two
  -- fractions.
  have tens (count : Nat) : 0 < 10 ^ count := Nat.pow_pos (by decide)
  cases digits with
  | zero =>
    -- Without digits that count the decimal is zero, an integer.
    obtain rfl : numerator = 0 := by simpa using bound
    rw [← Nat.zero_mul (10 ^ places)] at reads
    exact absurd (dvd_units_of_reads reads) fractional
  | succ digits =>
    by_contra longer
    have large : 10 ^ (digits + 1) ≤ (fewestPlaces rank).2 :=
      Nat.le_of_not_lt fun small => longer ((Nat.length_toDigits_le_iff (by decide) (by omega)).mpr small)
    have few := fewestPlaces_le reads
    have fewestReads := nearestRank_fewestPlaces rank
    obtain ⟨fewer, same⟩ := Nat.exists_eq_succ_of_ne_zero (fewestPlaces_ne_zero fractional)
    rw [same] at few fewestReads
    -- A power of ten with fewer places lies between the two, so it reads back as well.
    have between : nearestRank (10 ^ digits) (10 ^ fewer) = rank := by
      refine Nat.le_antisymm ?_ ?_
      · refine (nearestRank_mono (tens fewer) (tens _) ?_).trans_eq fewestReads
        calc 10 ^ digits * 10 ^ (fewer + 1) = 10 ^ (digits + 1) * 10 ^ fewer := by ring
          _ ≤ (fewestPlaces rank).2 * 10 ^ fewer := Nat.mul_le_mul_right _ large
      · refine reads.symm.trans_le (nearestRank_mono (tens places) (tens fewer) ?_)
        calc numerator * 10 ^ fewer ≤ 10 ^ (digits + 1) * 10 ^ fewer :=
              Nat.mul_le_mul_right _ (Nat.le_of_lt bound)
          _ = 10 ^ digits * 10 ^ (fewer + 1) := by ring
          _ ≤ 10 ^ digits * 10 ^ places := Nat.mul_le_mul_left _ (Nat.pow_le_pow_right (by decide) few)
    have := fewestPlaces_le between
    omega

/-- A literal that reads back as the rank has at least as many digits that count. -/
theorem length_le_of_literal {literal : Literal}
    (nearest : IsNearest rank literal.numerator literal.denominator) :
    (Nat.toDigits 10 (fewestPlaces rank).2).length ≤ literal.significant.length := by
  -- The literal is a fraction over a power of ten, whose zeros at the end are first taken away.
  have reads := (nearestRank_isNearest literal.numerator literal.denominator_pos).unique
    literal.denominator_pos nearest
  obtain ⟨factor, zeros, same, bound⟩ := literal.numerator_eq
  rw [same, Literal.denominator] at reads
  rcases Nat.le_total literal.places.length zeros with whole | placed
  · -- With zeros in all places the literal is an integer.
    rw [← Nat.sub_add_cancel whole, Nat.pow_add, ← Nat.mul_assoc] at reads
    exact absurd (dvd_units_of_reads reads) fractional
  · -- Zeros at the end are left out together with their places.
    have trimmed : nearestRank factor (10 ^ (literal.places.length - zeros)) = rank := by
      refine (nearestRank_congr (Nat.pow_pos (by decide)) (Nat.pow_pos (by decide)) ?_).trans reads
      rw [Nat.mul_assoc, ← Nat.pow_add, Nat.add_sub_cancel' placed]
    exact length_le_of_reads fractional trimmed bound

end Fractional

theorem signed_mul (negative : Bool) (magnitude factor : Nat) :
    signed negative (magnitude * factor) = signed negative magnitude * factor := by
  cases negative <;> simp [signed]

/-- Integers with signs are the same if their magnitudes and their signs are, unless the magnitude is zero. -/
theorem signed_eq_iff {negative otherNegative : Bool} {magnitude otherMagnitude : Nat} :
    signed negative magnitude = signed otherNegative otherMagnitude ↔
      magnitude = otherMagnitude ∧ (negative = otherNegative ∨ magnitude = 0) := by
  -- Only zero is the same with either sign.
  cases negative <;> cases otherNegative <;> simp [signed] <;> omega

/-- A magnitude with a sign that is an integral number of ones is the magnitude of that integer. -/
theorem units_of_signed_eq {negative : Bool} {value : Int}
    (exact : signed negative (units rank) = value * 2 ^ finest) :
    units rank = value.natAbs * 2 ^ finest := by
  -- The absolute value of both sides is taken.
  rw [← natAbs_signed negative (units rank), exact, Int.natAbs_mul, Int.natAbs_pow,
    show Int.natAbs 2 = 2 from rfl]

/-- A finite number equals an integer exactly if its value is that many times one. -/
theorem toInt?_eq_some_iff {number : Binary64} (finite : number.isFinite = true) (value : Int) :
    number.toInt? = some value ↔ number.scaled = value * 2 ^ finest := by
  -- The integer is there if the magnitude is a multiple of one, and then it is the quotient.
  obtain ⟨negative, rank, inRange, rfl⟩ := exists_finite finite
  rw [toInt?_finite, scaled]
  constructor
  · intro found
    split at found
    · rename_i whole
      obtain rfl := Option.some.inj found
      have exact := Nat.div_mul_cancel (Nat.dvd_of_mod_eq_zero whole)
      nth_rewrite 1 [← exact]
      rw [signed_mul, Nat.cast_pow, Nat.cast_ofNat]
    · cases found
  · intro same
    -- The magnitude is as many times one as the integer has it, and the signs are the same.
    have magnitude := units_of_signed_eq same
    have one : (2 : Int) ^ finest ≠ 0 := pow_ne_zero _ (by decide)
    rw [magnitude, signed_mul, Nat.cast_pow, Nat.cast_ofNat] at same
    rw [magnitude, if_pos (Nat.mul_mod_left _ _), Nat.mul_div_cancel _ (Nat.two_pow_pos finest),
      mul_right_cancel₀ one same]

/-- An integer is written as a sign and the digits of its magnitude. -/
theorem toString_eq_digits (value : Int) : toString value =
    String.ofList ((if value < 0 then ['-'] else []) ++ Nat.toDigits 10 value.natAbs) := by
  -- The integers are the naturals and the negatives of their successors, and the library writes them apart.
  cases value with
  | ofNat natural =>
    -- A natural has no sign, and is written by its digits.
    have notNegative : ¬ Int.ofNat natural < 0 := Int.not_lt.mpr (Int.natCast_nonneg natural)
    rw [if_neg notNegative]
    exact Nat.toString_eq_ofList_toDigits
  | negSucc natural =>
    -- In front of the digits stands a minus.
    rw [if_pos (Int.negSucc_lt_zero natural)]
    change "-" ++ toString (natural + 1) = _
    rw [Nat.toString_eq_ofList_toDigits, String.ofList_append]
    rfl

/-- A number that equals an integer is written as the integer. -/
theorem text_of_toInt? {number : Binary64} {value : Int} (integer : number.toInt? = some value) :
    number.text = toString value := by
  -- A number with an integer is finite, and written as that integer is.
  obtain ⟨negative, rank, inRange, rfl⟩ := exists_finite (isFinite_of_toInt? integer)
  rw [text, toChars, integer, finiteChars, toString_eq_digits]

/-- The literal that a finite number is written as. -/
theorem exists_tidy {number : Binary64} (finite : number.isFinite = true) :
    ∃ literal : Literal, number.toChars = literal.chars ∧ literal.Tidy ∧
      ((∀ value, number.toInt? ≠ some value) → ∀ other : Literal, other.Denotes number →
        literal.significant.length ≤ other.significant.length) := by
  -- A finite number is written as an integer or with its fewest places.
  obtain ⟨negative, rank, inRange, rfl⟩ := exists_finite finite
  by_cases whole : units rank % 2 ^ finest = 0
  · -- The number equals an integer, so nothing is said of its digits.
    refine ⟨_, toChars_of_whole negative inRange whole, Literal.tidy_ofPlaces _ (Or.inl rfl), ?_⟩
    intro noInteger
    rw [toInt?_finite, if_pos whole] at noInteger
    exact absurd rfl (noInteger _)
  · have fractional : ¬ 2 ^ finest ∣ units rank := fun divides => whole (Nat.mod_eq_zero_of_dvd divides)
    have last := fewestPlaces_last fractional
    refine ⟨_, toChars_of_not_whole negative inRange whole, Literal.tidy_ofPlaces _ (Or.inr last), ?_⟩
    intro noInteger other denotes
    obtain ⟨-, nearest⟩ := denotes
    rw [Literal.significant_ofPlaces _ last]
    exact length_le_of_literal fractional nearest

/-- The text of a finite number, a zero of either sign included. It is a tidy literal; alone it reads as one token,
with a number that is numerically the same. A number that equals an integer is written as that integer, and for any
other one no decimal that rounds to it has fewer digits that count. -/
theorem text_shortest {number : Binary64} (finite : number.isFinite = true) (path : Option Path) :
    let written := (Node.atom (.number number)).text
    ∃ literal : Literal, written = String.ofList literal.chars ∧ literal.Tidy ∧
      tokenize written path =
        .ok [{ lexeme := .atom (.number number.dropZeroSign), raw := written, location := { path } }] ∧
      number.dropZeroSign.agrees number = true ∧
      (∀ value : Int, number.scaled = value * 2 ^ finest → written = toString value) ∧
      ((∀ value : Int, number.scaled ≠ value * 2 ^ finest) →
        ∀ other : Literal, other.Denotes number →
          literal.significant.length ≤ other.significant.length) := by
  -- The literal is the one that is written. That it is a token, and what its digits are, are told from it.
  intro written
  obtain ⟨literal, chars, tidy, fewest⟩ := exists_tidy finite
  have same : written = String.ofList literal.chars := congrArg String.ofList chars
  refine ⟨literal, same, tidy, ?_, agrees_dropZeroSign finite, ?_, ?_⟩
  · -- The literal denotes the number, so alone it is its token.
    obtain ⟨again, sameChars, denotes⟩ := toChars_denotes finite
    have ends : Lexeme.Ends (.atom (.number number.dropZeroSign)) [] := ⟨fun _ => rfl, fun _ => Or.inl rfl⟩
    have read := Reads.single (Spells.number again denotes) ends { path }
    have parts : written.toList = literal.chars := by rw [same, String.toList_ofList]
    rw [sameChars, chars, List.append_nil, ← same, ← parts] at read
    exact tokenize_of_reads read
  · intro value integer
    exact text_of_toInt? ((toInt?_eq_some_iff finite value).mpr integer)
  · intro fractional
    exact fewest fun value integer => fractional value ((toInt?_eq_some_iff finite value).mp integer)

/-- A tenth, which no finite number equals, is such a number after rounding. -/
theorem text_shortest_tenth :
    let tenth := ofFraction false 1 10
    let written := (Node.atom (.number tenth)).text
    tenth.isFinite = true ∧ ∃ literal : Literal, written = String.ofList literal.chars ∧ literal.Tidy ∧
      tokenize written none =
        .ok [{ lexeme := .atom (.number tenth.dropZeroSign), raw := written, location := {} }] ∧
      tenth.dropZeroSign.agrees tenth = true ∧
      (∀ value : Int, tenth.scaled = value * 2 ^ finest → written = toString value) ∧
      ((∀ value : Int, tenth.scaled ≠ value * 2 ^ finest) →
        ∀ other : Literal, other.Denotes tenth →
          literal.significant.length ≤ other.significant.length) :=
  -- A tenth is computed to be finite.
  have finite : (ofFraction false 1 10).isFinite = true := by decide +kernel
  ⟨finite, text_shortest finite none⟩

example : (ofFraction true 1 10).text = "-0.1" := by decide +kernel

example : (ofFraction false (Nat.pow 2 60 + 1) 1).text = "1152921504606846976" := by decide +kernel

end Binary64

end Sexpr
