import Sexpr.Proofs.Token.Grammar
import Sexpr.Token.Scanner

/-! What one step of a scan does: it skips a blank, keeps a token of the grammar, or fails. -/

namespace Sexpr

/-- Why a text cannot be read on from a position, and the error for it. -/
inductive Refuses (place : Location) : List Char → Error → Prop
  | unclosed {contents : List Char}
      (endless : ∀ body rest, StringBody body → contents ≠ body ++ '"' :: rest) :
      Refuses place ('"' :: contents)
        { cause := .lexical .stringUnclosed
            { partialContents := some (.text (String.ofList contents)) }
          location := place.advanceOver ('"' :: contents) }
  | misread {word rest : List Char} (inside : ∀ char ∈ word, isDelimiter char = false)
      (ends : endsAtom rest.head? = true) (starts : startsNumber word = true)
      (noLiteral : ∀ literal : Literal, literal.chars ≠ word) :
      Refuses place (word ++ rest)
        { cause := .lexical .identifierBeginsWithNumber
            { got := some (.text (String.ofList word)) }
          location := place }
  | excessive (literal : Literal) {rest : List Char} (ends : endsAtom rest.head? = true)
      (excessive : literal.Excessive) :
      Refuses place (literal.chars ++ rest)
        { cause := .lexical .numberOutOfRange
            { got := some (.text (String.ofList literal.chars)) }
          location := place }

/-- A text that cannot be read on does not open with a blank. -/
theorem Refuses.opens {place : Location} {text : List Char} {error : Error}
    (refused : Refuses place text error) :
    ∃ char rest, text = char :: rest ∧ isBlank char = false := by
  -- What cannot be read opens with a quote, or with a character of a word.
  cases refused with
  | unclosed endless => exact ⟨_, _, rfl, by decide⟩
  | @misread word rest inside ends starts noLiteral =>
    have filled := ne_nil_of_startsNumber starts
    obtain ⟨char, behind, rfl, blank, -⟩ := opens_of_inside filled inside
    exact ⟨char, _, rfl, blank⟩
  | excessive literal ends excessive =>
    obtain ⟨char, behind, same, blank, -⟩ := opens_of_inside literal.chars_ne_nil literal.inside
    exact ⟨char, _, by rw [same, List.cons_append], blank⟩

/-- What ends an atom does not change whether it begins like a number. -/
theorem startsNumber_append {word rest : List Char} (filled : word ≠ [])
    (ends : endsAtom rest.head? = true) : startsNumber (word ++ rest) = startsNumber word := by
  -- Two characters decide whether a number starts, so only a word of one character needs to look behind it.
  match word with
  | [char] =>
    cases rest with
    | nil => rfl
    | cons next behind =>
      -- A delimiter behind a lone sign is no digit.
      have noDigit : next.isDigit = false := by
        by_contra digit
        simp [endsAtom, isDelimiter_of_isDigit (by simpa using digit)] at ends
      simp [startsNumber, noDigit]
  | first :: second :: behind => rfl

/-- Both truth values are words that begin like no number. -/
theorem word_bool (value : Bool) : (if value then "true".toList else "false".toList) ≠ [] ∧
    (∀ char ∈ (if value then "true".toList else "false".toList), isDelimiter char = false) ∧
    startsNumber (if value then "true".toList else "false".toList) = false := by
  -- There are two words, and each of the three facts is computed for both.
  refine ⟨?_, ?_, ?_⟩
  · cases value <;> simp
  · cases value <;> simp [isDelimiter, isBlank]
  · cases value <;> simp [startsNumber, isSign]

namespace Scanner

variable {scanner : Scanner}

/-- Skipping a run in front leaves what stands behind it. -/
theorem skip_append {raw rest : List Char} (ahead : scanner.rest = raw ++ rest) :
    scanner.skip raw.length = { scanner with
      past := raw.reverse ++ scanner.past
      rest
      location := scanner.location.advanceOver raw } := by
  simp [skip, ahead]

/-- A step over a blank. -/
theorem step_blank {char : Char} {rest : List Char} (ahead : scanner.rest = char :: rest)
    (blank : isBlank char = true) : scanner.step = (scanner.skip 1, .ok ()) := by
  -- The blank is the first thing that a step looks for.
  unfold step
  split
  · rename_i nothing
    simp [nothing] at ahead
  · rename_i first behind same
    obtain ⟨rfl, rfl⟩ := List.cons.inj (same.symm.trans ahead)
    simp only [blank, if_true]

/-- A step reads a word where no delimiter stands. -/
theorem step_word {char : Char} {rest : List Char} (ahead : scanner.rest = char :: rest)
    (inside : isDelimiter char = false) : scanner.step =
      if startsNumber scanner.rest then scanner.readNumber else scanner.readIdentifier := by
  -- A character that is no delimiter passes by all the other tests.
  have blank : isBlank char = false := isBlank_of_inside inside
  have others : char ≠ '(' ∧ char ≠ ')' ∧ char ≠ ';' ∧ char ≠ '"' := by
    refine ⟨?_, ?_, ?_, ?_⟩
    all_goals
      intro same
      subst same
      revert inside
      decide
  unfold step
  split
  · rename_i nothing
    simp [nothing] at ahead
  · rename_i first behind same
    obtain ⟨rfl, rfl⟩ := List.cons.inj (same.symm.trans ahead)
    simp only [blank, others.1, others.2.1, others.2.2.1, others.2.2.2, if_false,
      Bool.false_eq_true]

/-- Reading a comment keeps it up to the end of its line. -/
theorem readComment_eq {line rest : List Char} (ahead : scanner.rest = ';' :: line ++ rest)
    (inLine : '\n' ∉ line) (ends : rest.head? = none ∨ rest.head? = some '\n') :
    scanner.readComment =
      scanner.emit (.atom (.comment (String.ofList (dropReturn line)))) (';' :: line) := by
  -- The line feed bounds the split, so it takes the line and nothing more.
  rw [List.cons_append] at ahead
  simp only [readComment, ahead, splitLine_append inLine ends]

/-- Reading a string keeps it up to the quote that ends it. -/
theorem readString_eq {body rest : List Char} (ahead : scanner.rest = '"' :: body ++ '"' :: rest)
    (complete : StringBody body) : scanner.readString =
      scanner.emit (.atom (.string (String.ofList body))) ('"' :: body ++ ['"']) := by
  -- The contents are complete, so the split ends at the quote behind them.
  have found : splitString (body ++ '"' :: rest) = some (body, rest) :=
    splitString_eq_some.mpr ⟨complete, rfl⟩
  rw [List.cons_append] at ahead
  simp only [readString, ahead, found]

/-- Reading a string without an end fails behind the text. -/
theorem readString_endless {contents : List Char} (ahead : scanner.rest = '"' :: contents)
    (endless : ∀ body rest, StringBody body → contents ≠ body ++ '"' :: rest) :
    scanner.readString = (scanner.skip scanner.rest.length, .error
      { cause := .lexical .stringUnclosed
          { partialContents := some (.text (String.ofList contents)) }
        location := scanner.location.advanceOver ('"' :: contents) }) := by
  -- A split would show contents that end.
  have missing : splitString contents = none := by
    cases found : splitString contents with
    | none => rfl
    | some parts =>
      obtain ⟨complete, same⟩ := splitString_eq_some.mp found
      exact absurd same (endless _ _ complete)
  simp only [readString, ahead, missing, fail]
  simp [skip, ahead]

/-- A step reads a number where an atom begins like one. -/
theorem step_number {word rest : List Char} (ahead : scanner.rest = word ++ rest)
    (inside : ∀ char ∈ word, isDelimiter char = false) (ends : endsAtom rest.head? = true)
    (starts : startsNumber word = true) : scanner.step = scanner.readNumber := by
  -- Whether an atom begins like a number is decided within the word.
  cases word with
  | nil => simp [startsNumber] at starts
  | cons char more =>
    rw [step_word ahead (inside char (by simp)), ahead, startsNumber_append (by simp) ends, starts,
      if_pos rfl]

/-- Reading a literal that ends as an atom keeps its nearest number. -/
theorem readNumber_eq {literal : Literal} {value : Binary64} {rest : List Char}
    (ahead : scanner.rest = literal.chars ++ rest) (ends : endsAtom rest.head? = true)
    (denotes : literal.Denotes value) :
    scanner.readNumber = scanner.emit (.atom (.number value)) literal.chars := by
  -- The literal splits off whole, it ends the atom, and its value is the one that it denotes.
  have split := literal.splitLiteral_append (stops_of_endsAtom ends)
  have read := Literal.readLiteral_of_denotes denotes
  -- The number is finite, so it is not refused as infinite.
  obtain ⟨inRange, nearest⟩ := denotes
  simp only [readNumber, ahead, literal.startsNumber_chars, if_true, split, ends, read]

/-- Reading a literal beyond the finite numbers fails where it starts. -/
theorem readNumber_excessive {literal : Literal} {rest : List Char}
    (ahead : scanner.rest = literal.chars ++ rest) (ends : endsAtom rest.head? = true)
    (excessive : literal.Excessive) :
    scanner.readNumber = (scanner.skip literal.chars.length, .error
      { cause := .lexical .numberOutOfRange
          { got := some (.text (String.ofList literal.chars)) }
        location := scanner.location }) := by
  -- The literal splits off whole and ends the atom, but its value is refused.
  have split := literal.splitLiteral_append (stops_of_endsAtom ends)
  have read := Literal.readLiteral_of_excessive excessive
  simp only [readNumber, ahead, literal.startsNumber_chars, if_true, split, ends, read, fail]

/-- Reading a word that begins like a number and is no literal fails where it starts. -/
theorem readNumber_misread {word rest : List Char} (ahead : scanner.rest = word ++ rest)
    (inside : ∀ char ∈ word, isDelimiter char = false) (ends : endsAtom rest.head? = true)
    (starts : startsNumber word = true) (noLiteral : ∀ literal : Literal, literal.chars ≠ word) :
    scanner.readNumber = (scanner.skip word.length, .error
      { cause := .lexical .identifierBeginsWithNumber
          { got := some (.text (String.ofList word)) }
        location := scanner.location }) := by
  -- The literal in front of the word is not all of it, so the reader finds the atom unfinished.
  have filled := ne_nil_of_startsNumber starts
  have startsAhead : startsNumber (word ++ rest) = true := by
    rw [startsNumber_append filled ends, starts]
  obtain ⟨literal, behind, split, parts⟩ := Literal.splitLiteral_eq startsAhead
  obtain ⟨more, left, splitMore, partsMore, insideMore, endsMore⟩ := splitAtom_eq behind
  -- The literal and what the atom goes on with are one run, which is the word.
  have whole : splitAtom (word ++ rest) = (literal.chars ++ more, left) := by
    rw [parts, partsMore, ← List.append_assoc]
    apply splitAtom_append _ endsMore
    intro char member
    rcases List.mem_append.mp member with first | second
    · exact literal.inside char first
    · exact insideMore char second
  rw [splitAtom_append inside ends] at whole
  obtain ⟨same, -⟩ := Prod.mk.inj whole
  -- If the literal ended the atom, it would be the whole word.
  have unfinished : endsAtom behind.head? = false := by
    by_contra finished
    have finished : endsAtom behind.head? = true := by simpa using finished
    have alone : splitAtom behind = ([], behind) := by
      simpa using @splitAtom_append [] behind (by simp) finished
    rw [splitMore] at alone
    rw [(Prod.mk.inj alone).1, List.append_nil] at same
    exact noLiteral literal same.symm
  simp only [readNumber, ahead, startsAhead, if_true, split, unfinished, splitMore, ← same, fail,
    Bool.false_eq_true, if_false]

/-- Reading a name or a truth value keeps it whole. -/
theorem readIdentifier_eq {word rest : List Char} (ahead : scanner.rest = word ++ rest)
    (filled : word ≠ []) (inside : ∀ char ∈ word, isDelimiter char = false)
    (ends : endsAtom rest.head? = true) (notNumber : startsNumber word = false) :
    scanner.readIdentifier = scanner.emit (.atom (wordAtom word)) word := by
  -- The word is not empty, so the reader finds it to begin.
  have inWord : endsAtom (word ++ rest).head? = false := by
    cases word with
    | nil => exact absurd rfl filled
    | cons char more => simpa [endsAtom] using inside char (by simp)
  simp only [readIdentifier, ahead, inWord, startsNumber_append filled ends, notNumber,
    splitAtom_append inside ends, Bool.false_eq_true, if_false]

/-- Where a token of the grammar stands, a step keeps it. -/
theorem step_token {raw rest : List Char} {lexeme : Lexeme} (ahead : scanner.rest = raw ++ rest)
    (spelled : Spells raw lexeme) (ends : lexeme.Ends rest) :
    scanner.step = scanner.emit lexeme raw := by
  -- A spelling says which characters come first, and these select the reader.
  obtain ⟨char, behind, opened, -, delimiter⟩ := spelled.opens
  have first : scanner.rest = char :: (behind ++ rest) := by rw [ahead, opened, List.cons_append]
  -- The first character selects the reader, and the reader keeps the source text whole.
  cases spelled with
  | listOpen => simp [step, ahead, isBlank]
  | listClose => simp [step, ahead, isBlank]
  | comment inLine =>
    rw [← readComment_eq ahead inLine (ends.comment rfl)]
    rw [List.cons_append] at ahead
    simp [step, ahead, isBlank]
  | string complete =>
    rw [List.append_assoc, List.singleton_append] at ahead
    rw [← readString_eq ahead complete]
    rw [List.cons_append] at ahead
    simp [step, ahead, isBlank]
  | number literal denotes =>
    rw [step_number ahead literal.inside (ends.word rfl) literal.startsNumber_self]
    exact readNumber_eq ahead (ends.word rfl) denotes
  | bool value =>
    obtain ⟨filled, inside, notNumber⟩ := word_bool value
    rw [step_word first delimiter, ahead, startsNumber_append filled (ends.word rfl), notNumber,
      if_neg Bool.false_ne_true,
      readIdentifier_eq ahead filled inside (ends.word rfl) notNumber]
    cases value <;> rfl
  | identifier name =>
    rw [step_word first delimiter, ahead, startsNumber_append name.filled (ends.word rfl),
      name.notNumber, if_neg Bool.false_ne_true, readIdentifier_eq ahead name.filled name.inside
        (ends.word rfl) name.notNumber, wordAtom, if_neg name.notTrue, if_neg name.notFalse]

/-- Where a text cannot be read on, a step fails. -/
theorem step_refused {error : Error} (refused : Refuses scanner.location scanner.rest error) :
    ∃ count, scanner.step = (scanner.skip count, .error error) := by
  -- Each reason is the failure of one reader.
  generalize ahead : scanner.rest = text at refused
  -- The reader that the first character selects is the one that fails.
  cases refused with
  | unclosed endless =>
    refine ⟨_, Eq.trans ?_ (readString_endless ahead endless)⟩
    simp [step, ahead, isBlank]
  | misread inside ends starts noLiteral =>
    rw [step_number ahead inside ends starts]
    exact ⟨_, readNumber_misread ahead inside ends starts noLiteral⟩
  | excessive literal ends excessive =>
    rw [step_number ahead literal.inside ends literal.startsNumber_self]
    exact ⟨_, readNumber_excessive ahead ends excessive⟩

end Scanner

/-- A run up to the next delimiter is a literal or another word of the grammar, or cannot be read. -/
theorem word_cases (place : Location) {word rest : List Char} (filled : word ≠ [])
    (inside : ∀ char ∈ word, isDelimiter char = false) (ends : endsAtom rest.head? = true) :
    (∃ lexeme, Spells word lexeme ∧ lexeme.Ends rest) ∨
      ∃ error, Refuses place (word ++ rest) error := by
  -- A word that begins like a number has to be a literal, and a finite one.
  by_cases starts : startsNumber word = true
  · by_cases spelled : ∃ literal : Literal, literal.chars = word
    · obtain ⟨literal, rfl⟩ := spelled
      rcases literal.denotes_or_excessive with ⟨value, denotes⟩ | excessive
      · exact Or.inl ⟨_, .number literal denotes, Lexeme.ends_of_word rfl ends⟩
      · exact Or.inr ⟨_, .excessive literal ends excessive⟩
    · exact Or.inr ⟨_, .misread inside ends starts fun literal same => spelled ⟨literal, same⟩⟩
  · -- Any other word is read, as a truth value or as a name.
    left
    by_cases isTrue : word = "true".toList
    · subst isTrue
      exact ⟨_, .bool true, Lexeme.ends_of_word rfl ends⟩
    by_cases isFalse : word = "false".toList
    · subst isFalse
      exact ⟨_, .bool false, Lexeme.ends_of_word rfl ends⟩
    exact ⟨_, .identifier ⟨filled, inside, by simpa using starts, isTrue, isFalse⟩,
      Lexeme.ends_of_word rfl ends⟩

/-- Every text opens with a blank or a token of the grammar, unless it cannot be read on. -/
theorem text_cases (place : Location) {text : List Char} (ahead : text ≠ []) :
    (∃ char rest, text = char :: rest ∧ isBlank char = true) ∨
      (∃ raw lexeme rest, text = raw ++ rest ∧ Spells raw lexeme ∧ lexeme.Ends rest) ∨
      ∃ error, Refuses place text error := by
  -- The first character decides: a blank, one of the four delimiters that open a token, or the start of a word.
  cases text with
  | nil => exact absurd rfl ahead
  | cons char behind =>
    by_cases blank : isBlank char = true
    · exact Or.inl ⟨char, behind, rfl, blank⟩
    right
    by_cases delimiter : isDelimiter char = true
    · simp only [isDelimiter, blank, Bool.or_eq_true, beq_iff_eq, Bool.false_eq_true,
        false_or] at delimiter
      -- Each delimiter that is no blank opens a token of its own.
      rcases delimiter with ((rfl | rfl) | rfl) | rfl
      · exact Or.inl ⟨_, _, behind, rfl, .listOpen, Lexeme.ends_of_apart rfl (by decide) behind⟩
      · exact Or.inl ⟨_, _, behind, rfl, .listClose, Lexeme.ends_of_apart rfl (by decide) behind⟩
      · obtain ⟨line, rest, -, rfl, inLine, ends⟩ := splitLine_eq behind
        exact Or.inl ⟨';' :: line, _, rest, rfl, .comment inLine,
          Lexeme.ends_of_comment rfl ends⟩
      · -- A quote opens a string if one of those behind it ends it.
        cases found : splitString behind with
        | some parts =>
          obtain ⟨complete, same⟩ := splitString_eq_some.mp found
          exact Or.inl ⟨'"' :: parts.1 ++ ['"'], _, parts.2, by simp [same], .string complete,
            Lexeme.ends_of_apart rfl (by simp [Lexeme.kind, Atom.tokenKind]) parts.2⟩
        | none =>
          refine Or.inr ⟨_, .unclosed fun body rest complete same => ?_⟩
          rw [splitString_eq_some.mpr ⟨complete, same⟩] at found
          cases found
    · -- Anything else opens a word, which goes up to the next delimiter.
      obtain ⟨word, rest, -, parts, inside, ends⟩ := splitAtom_eq (char :: behind)
      have filled : word ≠ [] := by
        intro empty
        rw [empty, List.nil_append] at parts
        rw [← parts] at ends
        exact delimiter (by simpa [endsAtom] using ends)
      rw [parts]
      rcases word_cases place filled inside ends with ⟨lexeme, spelled, ended⟩ | refused
      · exact Or.inl ⟨word, lexeme, rest, rfl, spelled, ended⟩
      · exact Or.inr refused

end Sexpr
