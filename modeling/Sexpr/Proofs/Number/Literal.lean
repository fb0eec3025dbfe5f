import Sexpr.Number.Literal
import Sexpr.Proofs.Number.Nearest

/-! Decimal literals: their grammar, the number nearest to one, and how the longest one is split off. -/

namespace Sexpr

/-- A run of characters with a property ends where a text begins. -/
def Stops (holds : Char → Bool) (rest : List Char) : Prop :=
  ∀ char, rest.head? = some char → holds char = false

/-- A run that ends where the rest begins is split off whole. -/
theorem splitWhile_append {holds : Char → Bool} {run rest : List Char}
    (inside : ∀ char ∈ run, holds char = true) (stops : Stops holds rest) :
    splitWhile holds (run ++ rest) = (run, rest) := by
  -- Both halves of the split pass over the run and then stop at once.
  have ended : rest.takeWhile holds = [] ∧ rest.dropWhile holds = rest := by
    cases rest with
    | nil => simp
    | cons char tail => simp [stops char rfl]
  rw [splitWhile, List.takeWhile_append_of_pos inside, List.dropWhile_append_of_pos inside,
    ended.1, ended.2, List.append_nil]

/-- Splitting loses nothing, and what is split off is the longest run. -/
theorem splitWhile_eq (holds : Char → Bool) (text : List Char) :
    ∃ run rest, splitWhile holds text = (run, rest) ∧ text = run ++ rest ∧
      (∀ char ∈ run, holds char = true) ∧ Stops holds rest := by
  -- The library has the two parts of the split, with what holds in the one and ends it in the other.
  refine ⟨_, _, rfl, List.takeWhile_append_dropWhile.symm, ?_, ?_⟩
  · exact List.all_eq_true.mp List.all_takeWhile
  · -- The run is the longest, so the character behind it lacks the property.
    intro char first
    have refused := List.head?_dropWhile_not holds text
    rw [first] at refused
    simpa using refused

/-- Digits go on behind a point. -/
theorem splitDecimal_of_point {text whole behind places rest : List Char}
    (digits : splitWhile Char.isDigit text = (whole, '.' :: behind))
    (fraction : splitWhile Char.isDigit behind = (places, rest)) :
    splitDecimal text = (whole ++ '.' :: places, rest) := by
  -- The definition asks for the point behind the first digits.
  simp only [splitDecimal, digits, fraction]

/-- Digits end where no point stands. -/
theorem splitDecimal_of_end {text whole rest : List Char}
    (digits : splitWhile Char.isDigit text = (whole, rest)) (noPoint : rest.head? ≠ some '.') :
    splitDecimal text = (whole, rest) := by
  -- Only a point would send the digits on.
  cases rest with
  | nil => simp only [splitDecimal, digits]
  | cons char behind =>
    have other : char ≠ '.' := by simpa using noPoint
    simp only [splitDecimal, digits]
    split
    · rename_i same
      exact absurd (List.cons.inj same).1 other
    · rfl

/-- A decimal literal: a sign or none, digits, and a point with digits or none behind it. -/
structure Literal where
  sign : Option Char
  whole : List Char
  fraction : Option (List Char)
  signed : ∀ char ∈ sign, isSign char = true
  opens : whole ≠ []
  digits : ∀ char ∈ whole, char.isDigit = true
  fractionDigits : ∀ places ∈ fraction, ∀ char ∈ places, char.isDigit = true

/-- What begins like a number is not empty. -/
theorem ne_nil_of_startsNumber {text : List Char} (starts : startsNumber text = true) :
    text ≠ [] := by
  intro empty
  simp [empty, startsNumber] at starts

namespace Literal

/-- The point and the digits behind it, as far as they are written. -/
def tail (literal : Literal) : List Char :=
  match literal.fraction with
  | none => []
  | some places => '.' :: places

/-- The characters of a literal. -/
def chars (literal : Literal) : List Char :=
  literal.sign.toList ++ (literal.whole ++ literal.tail)

/-- The digits behind the point. -/
def places (literal : Literal) : List Char := literal.fraction.getD []

/-- Whether a literal is signed with a minus. -/
def negative (literal : Literal) : Bool := literal.sign == some '-'

/-- The natural that all digits of a literal spell. -/
def numerator (literal : Literal) : Nat := digitsValue (literal.whole ++ literal.places)

/-- What the numerator counts parts of: ten for every digit behind the point. -/
def denominator (literal : Literal) : Nat := 10 ^ literal.places.length

/-- The finite number nearest to a literal. -/
inductive Denotes (literal : Literal) : Binary64 → Prop
  | finite {rank : Nat} (inRange : rank < Binary64.rankCount)
      (nearest : Binary64.IsNearest rank literal.numerator literal.denominator) :
      Denotes literal (.finite literal.negative rank inRange)

/-- No finite number is nearest to a literal: its magnitude rounds to infinity. -/
def Excessive (literal : Literal) : Prop :=
  ∃ rank, Binary64.rankCount ≤ rank ∧
    Binary64.IsNearest rank literal.numerator literal.denominator

theorem denominator_pos (literal : Literal) : 0 < literal.denominator :=
  Nat.pow_pos (by decide)

/-- A digit is not a sign. -/
theorem isSign_of_isDigit {char : Char} (digit : char.isDigit = true) : isSign char = false := by
  -- Neither of the two signs is among the ten digits.
  simp only [isSign, Bool.or_eq_false_iff, beq_eq_false_iff_ne]
  constructor
  · intro plus
    simp [plus] at digit
  · intro minus
    simp [minus] at digit

/-- A literal is made of signs, digits and points alone. -/
theorem mem_chars (literal : Literal) {char : Char} (member : char ∈ literal.chars) :
    isSign char = true ∨ char.isDigit = true ∨ char = '.' := by
  -- The characters are those of the sign, of the digits and of what follows them.
  simp only [chars, List.mem_append, Option.mem_toList] at member
  rcases member with sign | whole | behind
  · exact Or.inl (literal.signed char sign)
  · exact Or.inr (Or.inl (literal.digits char whole))
  · -- What stands behind the digits is a point and further digits.
    cases written : literal.fraction with
    | none => simp [tail, written] at behind
    | some places =>
      simp only [tail, written, List.mem_cons] at behind
      rcases behind with point | digit
      · exact Or.inr (Or.inr point)
      · exact Or.inr (Or.inl (literal.fractionDigits places written char digit))

/-- The sign is split off whatever follows the digits. -/
theorem splitSign_append (literal : Literal) (rest : List Char) :
    splitSign (literal.sign.toList ++ (literal.whole ++ rest)) =
      (literal.sign.toList, literal.whole ++ rest) := by
  -- Without a sign the first digit is seen not to be one.
  cases written : literal.sign with
  | some char => simp [splitSign, literal.signed char written]
  | none =>
    cases whole : literal.whole with
    | nil => exact absurd whole literal.opens
    | cons digit more =>
      have : isSign digit = false := isSign_of_isDigit (literal.digits digit (by simp [whole]))
      simp [splitSign, this]

/-- A text begins like a literal if it opens with a digit, or with a sign and a digit. -/
theorem startsNumber_iff (text : List Char) : startsNumber text = true ↔
    ∃ (sign : Option Char) (digit : Char) (rest : List Char),
      text = sign.toList ++ digit :: rest ∧ (∀ char ∈ sign, isSign char = true) ∧
        digit.isDigit = true := by
  -- At most the first two characters are looked at, in the definition as in the sign and the digit.
  constructor
  · intro starts
    -- Either one character is looked at or two, and the second counts behind a sign alone.
    match text, starts with
    | [digit], starts => exact ⟨none, digit, [], rfl, by simp, starts⟩
    | first :: second :: rest, starts =>
      simp only [startsNumber, Bool.or_eq_true, Bool.and_eq_true] at starts
      rcases starts with digit | ⟨sign, digit⟩
      · exact ⟨none, first, second :: rest, rfl, by simp, digit⟩
      · exact ⟨some first, second, rest, rfl, by simpa using sign, digit⟩
  · intro opened
    obtain ⟨sign, digit, rest, rfl, signed, isDigit⟩ := opened
    -- A digit decides for itself, and a sign by the digit behind it.
    cases sign with
    | none => cases rest <;> simp [startsNumber, isDigit]
    | some char => simp [startsNumber, signed char rfl, isDigit]

/-- A text with a literal in front begins like one. -/
theorem startsNumber_chars (literal : Literal) (rest : List Char) :
    startsNumber (literal.chars ++ rest) = true := by
  -- The first digit stands in front or right behind the sign.
  rw [startsNumber_iff]
  cases whole : literal.whole with
  | nil => exact absurd whole literal.opens
  | cons digit more =>
    exact ⟨literal.sign, digit, more ++ literal.tail ++ rest, by simp [chars, whole],
      literal.signed, literal.digits digit (by simp [whole])⟩

/-- A literal begins like one. -/
theorem startsNumber_self (literal : Literal) : startsNumber literal.chars = true := by
  simpa using literal.startsNumber_chars []

/-- Behind the digits of a literal stands no further one. -/
theorem stops_tail (literal : Literal) {rest : List Char} (stops : Stops Char.isDigit rest) :
    Stops Char.isDigit (literal.tail ++ rest) := by
  -- A point is no digit, and without one the rest decides.
  cases written : literal.fraction with
  | none => simpa [tail, written] using stops
  | some places =>
    intro char first
    simp only [tail, written, List.cons_append, List.head?_cons, Option.some.injEq] at first
    subst first
    decide

/-- Splitting off a literal is splitting off its digits behind its sign. -/
theorem splitLiteral_of_decimal (literal : Literal) {behind rest : List Char}
    (decimal : splitDecimal (literal.whole ++ behind) = (literal.whole ++ literal.tail, rest)) :
    splitLiteral (literal.sign.toList ++ (literal.whole ++ behind)) = (literal.chars, rest) := by
  -- The sign is split off first, and the decimal behind it as assumed.
  simp only [splitLiteral, splitSign_append, decimal, chars]

/-- The digits of a literal and what is written behind them are split off where neither a digit nor a
point follows. -/
theorem splitDecimal_append (literal : Literal) {rest : List Char}
    (stops : Stops (fun char => char.isDigit || char == '.') rest) :
    splitDecimal (literal.whole ++ (literal.tail ++ rest)) =
      (literal.whole ++ literal.tail, rest) := by
  -- What follows is neither a digit nor a point, so each of the two splits ends with the digits it is for.
  have noDigit : Stops Char.isDigit rest := fun char first => by
    simpa using (Bool.or_eq_false_iff.mp (stops char first)).1
  have noPoint : rest.head? ≠ some '.' := fun first => by
    simpa using stops '.' first
  have whole := splitWhile_append literal.digits (literal.stops_tail noDigit)
  cases written : literal.fraction with
  | none =>
    -- The digits end the literal, as the rest does not open with a point.
    simp only [tail, written, List.nil_append, List.append_nil] at whole ⊢
    exact splitDecimal_of_end whole noPoint
  -- A point that is written sends the digits on to those behind it.
  | some places =>
    simp only [tail, written, List.cons_append] at whole ⊢
    exact splitDecimal_of_point whole
      (splitWhile_append (literal.fractionDigits places written) noDigit)

/-- The longest literal is split off where neither a digit nor a point follows. -/
theorem splitLiteral_append (literal : Literal) {rest : List Char}
    (stops : Stops (fun char => char.isDigit || char == '.') rest) :
    splitLiteral (literal.chars ++ rest) = (literal.chars, rest) := by
  -- With the parts written one after another, the sign and the decimal split off in turn.
  rw [chars, List.append_assoc, List.append_assoc]
  exact literal.splitLiteral_of_decimal (literal.splitDecimal_append stops)

/-- Where a text begins like a literal, one is split off. -/
theorem splitLiteral_eq {text : List Char} (starts : startsNumber text = true) :
    ∃ (literal : Literal) (rest : List Char),
      splitLiteral text = (literal.chars, rest) ∧ text = literal.chars ++ rest := by
  -- What splits off is collected into a literal, with a point or without one.
  obtain ⟨sign, digit, behind, same, signed, isDigit⟩ := (startsNumber_iff text).mp starts
  -- The digits in front are split off first, and there is at least one.
  obtain ⟨whole, rest, split, parts, digits, stops⟩ := splitWhile_eq Char.isDigit (digit :: behind)
  have opens : whole ≠ [] := by
    intro empty
    rw [empty, List.nil_append] at parts
    subst parts
    simpa [isDigit] using stops digit rfl
  by_cases pointed : rest.head? = some '.'
  · -- A point goes on with the longest run of digits behind it.
    obtain ⟨tail, rfl⟩ : ∃ tail, rest = '.' :: tail := by
      cases rest with
      | nil => simp at pointed
      | cons char tail => exact ⟨tail, by simpa using pointed⟩
    obtain ⟨places, left, splitPlaces, partsPlaces, placesDigits, _⟩ :=
      splitWhile_eq Char.isDigit tail
    let literal : Literal :=
      { sign, whole, fraction := some places, signed, opens, digits,
        fractionDigits := by simpa using placesDigits }
    have written : text = literal.chars ++ left := by
      simp [chars, Literal.tail, literal, same, parts, partsPlaces]
    refine ⟨literal, left, ?_, written⟩
    rw [same, parts]
    apply literal.splitLiteral_of_decimal
    apply splitDecimal_of_point _ splitPlaces
    rw [← parts, split]
  · -- Without a point the literal ends with these digits.
    let literal : Literal :=
      { sign, whole, fraction := none, signed, opens, digits, fractionDigits := by simp }
    have written : text = literal.chars ++ rest := by
      simp [chars, tail, literal, same, parts]
    refine ⟨literal, rest, ?_, written⟩
    rw [same, parts]
    apply literal.splitLiteral_of_decimal
    rw [show literal.whole ++ literal.tail = whole from List.append_nil whole]
    apply splitDecimal_of_end _ pointed
    rw [← parts, split]

/-- The digits in front of the point are split from what is written behind them. -/
theorem splitWhile_whole (literal : Literal) :
    splitWhile Char.isDigit (literal.whole ++ literal.tail) = (literal.whole, literal.tail) := by
  -- The digits in front end at the point or with the literal.
  have stops : Stops Char.isDigit literal.tail := by
    simpa using @literal.stops_tail [] (by simp [Stops])
  exact splitWhile_append literal.digits stops

/-- Without its point the tail of a literal is the digits behind that. -/
theorem drop_tail (literal : Literal) : literal.tail.drop 1 = literal.places := by
  -- The tail is the point and the places, if there is a point.
  cases written : literal.fraction <;> simp [tail, places, written]

/-- The sign of a literal is found to be a minus if the literal is negative. -/
theorem sign_eq_minus (literal : Literal) :
    (literal.sign.toList == ['-']) = literal.negative := by
  -- A sign or none is written, and just the minus makes the literal negative.
  cases written : literal.sign <;> simp [negative, written]

/-- A literal is read as the number nearest to it. -/
theorem readLiteral_chars (literal : Literal) : readLiteral literal.chars =
    .ofFraction literal.negative literal.numerator literal.denominator := by
  -- Each part of the literal is found again where the reader splits it.
  rw [readLiteral, chars, splitSign_append]
  simp only [splitWhile_whole, drop_tail, sign_eq_minus, numerator, denominator, Nat.pow_eq]

/-- A literal is read as its nearest number. -/
theorem readLiteral_of_denotes {literal : Literal} {value : Binary64}
    (denotes : literal.Denotes value) : readLiteral literal.chars = value := by
  -- The literal is read as the rank that rounding finds.
  obtain ⟨inRange, nearest⟩ := denotes
  -- What rounding finds is nearest, and only one rank is.
  have found := Binary64.nearestRank_isNearest literal.numerator literal.denominator_pos
  obtain rfl := found.unique literal.denominator_pos nearest
  rw [readLiteral_chars]
  exact Binary64.ofRank_of_lt _ inRange

/-- A literal without a nearest finite number is read as infinite. -/
theorem readLiteral_of_excessive {literal : Literal} (excessive : literal.Excessive) :
    readLiteral literal.chars = .infinity literal.negative := by
  -- The literal is read as the rank that rounding finds, and as infinite if there is no such rank.
  obtain ⟨rank, beyond, nearest⟩ := excessive
  -- Only one rank is nearest, so rounding finds one beyond the bound.
  have found := Binary64.nearestRank_isNearest literal.numerator literal.denominator_pos
  obtain rfl := found.unique literal.denominator_pos nearest
  rw [readLiteral_chars]
  exact Binary64.ofRank_of_le _ beyond

/-- Every literal rounds to a finite number or to infinity. -/
theorem denotes_or_excessive (literal : Literal) :
    (∃ value, literal.Denotes value) ∨ literal.Excessive := by
  -- The nearest rank is below the bound or not.
  have found := Binary64.nearestRank_isNearest literal.numerator literal.denominator_pos
  rcases Nat.lt_or_ge (Binary64.nearestRank literal.numerator literal.denominator)
    Binary64.rankCount with inRange | beyond
  · exact Or.inl ⟨_, .finite inRange found⟩
  · exact Or.inr ⟨_, beyond, found⟩

end Literal

end Sexpr
