import Sexpr.Proofs.Token.Step

/-! The class that the text ahead suggests: it selects the reader of a step, and wherever a reader is called it
says what that reader can keep. -/

namespace Sexpr

/-- The class that a text suggests, by what it opens with. -/
inductive Suggests : List Char → TokenKind → Prop
  | listOpen {rest : List Char} : Suggests ('(' :: rest) .listOpen
  | listClose {rest : List Char} : Suggests (')' :: rest) .listClose
  | comment {rest : List Char} : Suggests (';' :: rest) .comment
  | string {rest : List Char} : Suggests ('"' :: rest) .string
  | number {text : List Char} (starts : startsNumber text = true) : Suggests text .number
  | identifier {text : List Char} (notNumber : startsNumber text = false)
      (others : ∀ char ∈ text.head?, isDelimiter char = isBlank char) : Suggests text .identifier

section Classes

variable {text : List Char}

/-- What begins like a number opens with no delimiter. -/
theorem endsAtom_of_startsNumber (starts : startsNumber text = true) : endsAtom text.head? = false := by
  -- A sign is no delimiter, and without one the digit stands in front.
  obtain ⟨sign, digit, rest, rfl, signed, isDigit⟩ := (Literal.startsNumber_iff text).mp starts
  cases sign with
  | none => exact isDelimiter_of_isDigit isDigit
  | some char => exact isDelimiter_of_isSign (signed char rfl)

theorem suggests_classify (text : List Char) : Suggests text (classify text) := by
  -- The cases are the branches of the classification, in their order.
  unfold classify
  split
  · exact .listOpen
  · exact .listClose
  · exact .comment
  · exact .string
  next noOpen noClose noComment noString =>
    split
    next starts => exact .number starts
    next notNumber =>
      refine .identifier (by simpa using notNumber) fun char first => ?_
      -- The four delimiters that are no blanks have been looked for before.
      obtain ⟨rest, rfl⟩ := List.head?_eq_some_iff.mp first
      have opens : (char == '(') = false := beq_eq_false_iff_ne.mpr fun same => noOpen rest (same ▸ rfl)
      have closes : (char == ')') = false := beq_eq_false_iff_ne.mpr fun same => noClose rest (same ▸ rfl)
      have comment : (char == ';') = false := beq_eq_false_iff_ne.mpr fun same => noComment rest (same ▸ rfl)
      have string : (char == '"') = false := beq_eq_false_iff_ne.mpr fun same => noString rest (same ▸ rfl)
      simp only [isDelimiter, opens, closes, comment, string, Bool.or_false]

/-- The class of numbers is suggested exactly by what begins like one. -/
theorem classify_number_iff : classify text = .number ↔ startsNumber text = true := by
  -- The suggestion has one constructor for a number, and each other excludes that one starts.
  have suggested := suggests_classify text
  generalize classify text = kind at suggested
  cases suggested with
  | number starts => simp [starts]
  | identifier notNumber => simp [notNumber]
  | _ =>
    -- A delimiter stands in front.
    refine iff_of_false (by simp) fun starts => ?_
    simpa [endsAtom, isDelimiter] using endsAtom_of_startsNumber starts

/-- The class of identifiers is suggested in front of a blank, at the end of the text, and for a word that does not
begin like a number. -/
theorem classify_identifier_iff : classify text = .identifier ↔
    startsNumber text = false ∧ ∀ char ∈ text.head?, isDelimiter char = isBlank char := by
  -- The suggestion has one constructor for an identifier, and each other puts a number or a delimiter in front.
  have suggested := suggests_classify text
  generalize classify text = kind at suggested
  cases suggested with
  | number starts => simp [starts]
  | identifier notNumber others => exact iff_of_true rfl ⟨notNumber, others⟩
  | _ => simp [isDelimiter, isBlank]

/-- A word that does not begin like a number suggests an identifier, whatever it spells. -/
theorem classify_word {word rest : List Char} (filled : word ≠ [])
    (inside : ∀ char ∈ word, isDelimiter char = false) (ends : endsAtom rest.head? = true)
    (notNumber : startsNumber word = false) : classify (word ++ rest) = .identifier := by
  -- What is behind the word does not change whether a number starts, and its first character is no delimiter.
  obtain ⟨char, more, rfl, notBlank, notDelimiter⟩ := opens_of_inside filled inside
  refine classify_identifier_iff.mpr ⟨(startsNumber_append filled ends).trans notNumber, fun first same => ?_⟩
  obtain rfl := Option.some.inj same
  rw [notBlank, notDelimiter]

/-- A source text suggests the class of its lexeme, or an identifier if it spells a truth value. -/
theorem classify_of_spells {raw rest : List Char} {lexeme : Lexeme} (spelled : Spells raw lexeme)
    (ends : lexeme.Ends rest) : lexeme.kind = classify (raw ++ rest) ∨
      classify (raw ++ rest) = .identifier ∧ lexeme.kind = .bool := by
  -- The cases are the spellings. Only a truth value is written as a word of another kind.
  cases spelled with
  | listOpen => exact Or.inl rfl
  | listClose => exact Or.inl rfl
  | comment => exact Or.inl rfl
  | string => exact Or.inl rfl
  | number literal => exact Or.inl (classify_number_iff.mpr (literal.startsNumber_chars rest)).symm
  | bool value =>
    obtain ⟨filled, inside, notNumber⟩ := word_bool value
    exact Or.inr ⟨classify_word filled inside (ends.word rfl) notNumber, rfl⟩
  | identifier name => exact Or.inl (classify_word name.filled name.inside (ends.word rfl) name.notNumber).symm

end Classes

namespace Scanner

/-- Something stands ahead, and it is no blank. -/
def AtToken (scanner : Scanner) : Prop := ∃ char rest, scanner.rest = char :: rest ∧ isBlank char = false

/-- The reader for a class; the ends of lists are kept as they are, and a truth value is read as a word. -/
def readAs (scanner : Scanner) : TokenKind → Outcome Unit
  | .listOpen => scanner.emit .listOpen ['(']
  | .listClose => scanner.emit .listClose [')']
  | .comment => scanner.readComment
  | .string => scanner.readString
  | .number => scanner.readNumber
  | .identifier | .bool => scanner.readIdentifier

/-- An outcome that has kept one more token, which is of a class. -/
def Adds (scanner : Scanner) (kind : TokenKind) (outcome : Outcome Unit) : Prop :=
  outcome.2 = .ok () ∧ ∃ token : Token, token.kind = kind ∧ outcome.1.tokens = scanner.tokens.push token

/-- An outcome that is an error and has kept no more tokens. -/
def Fails (scanner : Scanner) (error : Error) (outcome : Outcome Unit) : Prop :=
  outcome.2 = .error error ∧ outcome.1.tokens = scanner.tokens

/-- An outcome that has kept a token of a class where that class is suggested, or otherwise is an error. -/
def AddsOnly (scanner : Scanner) (kind : TokenKind) (outcome : Outcome Unit) : Prop :=
  (∃ error, scanner.Fails error outcome) ∨ scanner.classify = kind ∧ scanner.Adds kind outcome

variable {scanner : Scanner}

theorem adds_emit (lexeme : Lexeme) (raw : List Char) : scanner.Adds lexeme.kind (scanner.emit lexeme raw) :=
  ⟨rfl, _, rfl, rfl⟩

/-- An outcome that has failed has kept nothing. -/
theorem Fails.not_adds {outcome : Outcome Unit} {error : Error} (fails : scanner.Fails error outcome) :
    ¬ ∃ kind, scanner.Adds kind outcome := by
  -- A call has one result, and it cannot be both a success and an error.
  rintro ⟨kind, kept, -⟩
  cases fails.1.symm.trans kept

/-- A step in front of a token is what the class that is suggested is read with. -/
theorem step_eq_readAs (here : scanner.AtToken) : scanner.step = scanner.readAs scanner.classify := by
  -- The step tests the first character in the order of the classification, so each suggestion leads to its own
  -- reader.
  obtain ⟨char, rest, ahead, filled⟩ := here
  have suggested := suggests_classify scanner.rest
  rw [Scanner.classify]
  generalize Sexpr.classify scanner.rest = kind at suggested
  rw [ahead] at suggested
  cases suggested with
  | number starts => rw [step_word ahead (endsAtom_of_startsNumber starts), ahead, if_pos starts, readAs]
  | identifier notNumber others =>
    rw [step_word ahead ((others char rfl).trans filled), ahead, if_neg (by simp [notNumber]), readAs]
  | _ => simp [step, ahead, filled, readAs]

theorem readComment_adds (scanner : Scanner) : scanner.AddsOnly .comment scanner.readComment := by
  -- The reader asks for the semicolon, and with one in front the suggestion is a comment.
  unfold readComment
  split
  next rest ahead => exact Or.inr ⟨by rw [Scanner.classify, ahead]; rfl, adds_emit _ _⟩
  next => exact Or.inl ⟨_, rfl, rfl⟩

theorem readString_adds (scanner : Scanner) : scanner.AddsOnly .string scanner.readString := by
  -- The reader asks for the quote, and with one in front the suggestion is a string.
  unfold readString
  split
  next rest ahead =>
    split
    · exact Or.inr ⟨by rw [Scanner.classify, ahead]; rfl, adds_emit _ _⟩
    · exact Or.inl ⟨_, rfl, rfl⟩
  next => exact Or.inl ⟨_, rfl, rfl⟩

theorem readNumber_adds (scanner : Scanner) : scanner.AddsOnly .number scanner.readNumber := by
  -- The reader asks for the start of a number, which is just what the suggestion says.
  unfold readNumber
  split
  next starts =>
    -- The literal has to end, and to be finite.
    dsimp only
    split
    · split
      · exact Or.inl ⟨_, rfl, rfl⟩
      · exact Or.inr ⟨classify_number_iff.mpr starts, adds_emit _ _⟩
    · exact Or.inl ⟨_, rfl, rfl⟩
  next => exact Or.inl ⟨_, rfl, rfl⟩

/-- A word is a truth value or an identifier. -/
theorem tokenKind_wordAtom (word : List Char) :
    (wordAtom word).tokenKind = .identifier ∨ (wordAtom word).tokenKind = .bool := by
  -- Two words are truth values, and all others name something.
  unfold wordAtom
  split
  · exact Or.inr rfl
  split
  · exact Or.inr rfl
  · exact Or.inl rfl

/-- A token ahead for which an identifier is suggested is a word that does not begin like a number. -/
theorem atIdentifier_iff : scanner.classify = .identifier ∧ scanner.AtToken ↔
    endsAtom scanner.rest.head? = false ∧ startsNumber scanner.rest = false := by
  -- The character in front is no blank, so it is a delimiter only if the word there is empty.
  rw [Scanner.classify, classify_identifier_iff, AtToken]
  constructor
  · rintro ⟨⟨notNumber, others⟩, char, rest, ahead, filled⟩
    rw [ahead] at others
    exact ⟨by rw [ahead]; exact (others char rfl).trans filled, notNumber⟩
  · rintro ⟨stands, notNumber⟩
    cases ahead : scanner.rest with
    | nil => simp [ahead, endsAtom] at stands
    | cons char rest =>
      have inside : isDelimiter char = false := by simpa [ahead, endsAtom] using stands
      have filled := isBlank_of_inside inside
      exact ⟨⟨ahead ▸ notNumber, by simp [inside, filled]⟩, char, rest, rfl, filled⟩

/-- A word is kept where it stands, unless it begins like a number. -/
theorem readIdentifier_kept (suggested : scanner.classify = .identifier) (here : scanner.AtToken) :
    scanner.Adds .identifier scanner.readIdentifier ∨ scanner.Adds .bool scanner.readIdentifier := by
  -- Neither of the two guards of the reader holds here, so it keeps the word.
  obtain ⟨stands, notNumber⟩ := atIdentifier_iff.mp ⟨suggested, here⟩
  simp only [readIdentifier, stands, notNumber, Bool.false_eq_true, if_false]
  have added := @adds_emit scanner (.atom (wordAtom (splitAtom scanner.rest).1)) (splitAtom scanner.rest).1
  rw [Lexeme.kind] at added
  rcases tokenKind_wordAtom (splitAtom scanner.rest).1 with name | truth
  · exact Or.inl (name ▸ added)
  · exact Or.inr (truth ▸ added)

/-- Everywhere else reading a word fails. -/
theorem readIdentifier_fails (elsewhere : ¬ (scanner.classify = .identifier ∧ scanner.AtToken)) :
    ∃ error, scanner.Fails error scanner.readIdentifier := by
  -- If both guards of the reader let it pass, it would stand at an identifier.
  rw [atIdentifier_iff] at elsewhere
  unfold readIdentifier
  split
  next => exact ⟨_, rfl, rfl⟩
  next stands =>
    dsimp only
    split
    next => exact ⟨_, rfl, rfl⟩
    next notNumber => exact absurd ⟨by simpa using stands, by simpa using notNumber⟩ elsewhere

/-- Where a number is suggested reading a word fails, and gives the whole run up to the next delimiter as evidence. -/
theorem readIdentifier_number (suggested : scanner.classify = .number) :
    ∃ word rest, scanner.rest = word ++ rest ∧ (∀ char ∈ word, isDelimiter char = false) ∧
      endsAtom rest.head? = true ∧ scanner.readIdentifier = (scanner.skip word.length, .error
        { cause := .lexical .identifierBeginsWithNumber { got := some (.text (String.ofList word)) }
          location := scanner.location }) := by
  -- The word is split off before the guard that looks for a number, so the error shows all of it.
  have starts := classify_number_iff.mp suggested
  obtain ⟨word, rest, split, parts, inside, ends⟩ := splitAtom_eq scanner.rest
  refine ⟨word, rest, parts, inside, ends, ?_⟩
  simp only [readIdentifier, endsAtom_of_startsNumber starts, starts, split, Bool.false_eq_true, if_false, if_true]
  rfl

/-- A step in front of a token fails where the text cannot be read on. Elsewhere it keeps one token, of the class
that is suggested or a truth value where that is an identifier. -/
theorem step_settles (here : scanner.AtToken) :
    (∃ error, Refuses scanner.location scanner.rest error ∧ scanner.Fails error scanner.step) ∨
      scanner.Adds scanner.classify scanner.step ∨
      scanner.classify = .identifier ∧ scanner.Adds .bool scanner.step := by
  -- What stands in front is a blank, the source text of a token, or what no reader takes.
  obtain ⟨char, rest, ahead, filled⟩ := here
  rcases text_cases scanner.location (ahead ▸ List.cons_ne_nil char rest) with ⟨first, behind, parts, blank⟩ |
    ⟨raw, lexeme, behind, parts, spelled, ends⟩ | ⟨error, refused⟩
  · -- No blank stands in front.
    obtain ⟨rfl, -⟩ := List.cons.inj (ahead.symm.trans parts)
    simp [blank] at filled
  · -- What is kept is spelled by the source text that stands in front.
    rw [step_token parts spelled ends, Scanner.classify, parts]
    have added := @adds_emit scanner lexeme raw
    rcases classify_of_spells spelled ends with same | ⟨word, truth⟩
    · exact Or.inr (Or.inl (same ▸ added))
    · exact Or.inr (Or.inr ⟨word, truth ▸ added⟩)
  · obtain ⟨count, failed⟩ := step_refused refused
    exact Or.inl ⟨error, refused, by rw [failed]; exact ⟨rfl, rfl⟩⟩

/-- The class that is suggested ahead agrees with what a step does there, and with what each reader can keep
wherever it is called. In front of a token a step calls the reader for that class. This fails where the text cannot be
read on, and otherwise keeps one token of the class, or a truth value where an identifier is suggested. Wherever they
are called, the readers of comments, strings and numbers keep a token only where their class is suggested, and that
of words keeps one exactly in front of a token for which an identifier is. Where a number is suggested the latter
fails, with the whole run up to the next delimiter as evidence. -/
theorem classify_agrees (scanner : Scanner) :
    (scanner.AtToken → scanner.step = scanner.readAs scanner.classify ∧
      ((∃ error, Refuses scanner.location scanner.rest error ∧ scanner.Fails error scanner.step) ∨
        scanner.Adds scanner.classify scanner.step ∨
        scanner.classify = .identifier ∧ scanner.Adds .bool scanner.step)) ∧
    scanner.AddsOnly .comment scanner.readComment ∧ scanner.AddsOnly .string scanner.readString ∧
    scanner.AddsOnly .number scanner.readNumber ∧
    ((∃ kind, scanner.Adds kind scanner.readIdentifier) ↔ scanner.classify = .identifier ∧ scanner.AtToken) ∧
    (¬ (scanner.classify = .identifier ∧ scanner.AtToken) → ∃ error, scanner.Fails error scanner.readIdentifier) ∧
    (scanner.classify = .number → ∃ word rest, scanner.rest = word ++ rest ∧
      (∀ char ∈ word, isDelimiter char = false) ∧ endsAtom rest.head? = true ∧
      scanner.readIdentifier = (scanner.skip word.length, .error
        { cause := .lexical .identifierBeginsWithNumber { got := some (.text (String.ofList word)) }
          location := scanner.location })) := by
  -- Each part is one of the lemmas above, and the equivalence for identifiers joins the two about their reader.
  refine ⟨fun here => ⟨step_eq_readAs here, step_settles here⟩, readComment_adds scanner, readString_adds scanner,
    readNumber_adds scanner, ⟨?_, ?_⟩, readIdentifier_fails, readIdentifier_number⟩
  · -- What has kept a token has not failed, as it would everywhere else.
    intro kept
    by_contra elsewhere
    obtain ⟨error, fails⟩ := readIdentifier_fails elsewhere
    exact fails.not_adds kept
  · rintro ⟨suggested, here⟩
    rcases readIdentifier_kept suggested here with name | truth
    · exact ⟨_, name⟩
    · exact ⟨_, truth⟩

/-- Called in front of a literal, the reader of words takes all of it, and keeps nothing. -/
example : (Scanner.start "-2.5(a").readIdentifier.2 = .error
    ⟨.lexical .identifierBeginsWithNumber { got := some (.text "-2.5") }, {}⟩ := by decide

end Scanner

end Sexpr
