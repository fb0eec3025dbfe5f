import Mathlib.Data.List.Forall2
import Sexpr.Proofs.Source.Position
import Sexpr.Proofs.Token.Reads

/-! Locations: tokens and errors carry the positions at which they stand in the text. -/

namespace Sexpr

/-- The same token in the text of another file. -/
def Token.withPath (token : Token) (path : Option Path) : Token :=
  { token with location := token.location.withPath path }

/-- The same error in the text of another file. -/
def Error.withPath (error : Error) (path : Option Path) : Error :=
  { error with location := error.location.withPath path }

/-- A token whose position has been moved. -/
def Token.relocate (move : Location → Location) (token : Token) : Token :=
  { token with location := move token.location }

/-- An error whose position has been moved. -/
def Error.relocate (move : Location → Location) (error : Error) : Error :=
  { error with location := move error.location }

/-- The offsets at which tokens start in a text: each behind the blanks that follow the one before. -/
def startsFrom (text : List Char) (offset : Nat) : List Token → List Nat
  | [] => []
  | token :: tokens =>
    let start := offset + ((text.drop offset).takeWhile isBlank).length
    start :: startsFrom text (start + token.raw.length) tokens

/-- A token that stands at an offset: it is written there, and its location is that position, from
which the offset can be recovered. -/
structure Token.StandsAt (path : Option Path) (text : List Char) (token : Token) (start : Nat) :
    Prop where
  located : token.location = positionAt path text start
  written : token.raw.toList <+: text.drop start
  recovered : token.location.offsetIn text = some start

/-- A word that stands at an offset as an atom, between delimiters or the ends of the text. -/
structure AtomAt (text : List Char) (offset : Nat) (word : List Char) : Prop where
  filled : word ≠ []
  inside : ∀ char ∈ word, isDelimiter char = false
  parts : ∃ before rest, text = before ++ (word ++ rest) ∧ before.length = offset ∧
    (∀ char, before.getLast? = some char → isDelimiter char = true) ∧
      endsAtom rest.head? = true

/-- An error that stands where reading failed: at the end of the text if a string is not closed, and
else at the start of the word that is no token, up to which the text has tokens. -/
structure Error.StandsAt (path : Option Path) (text : List Char) (error : Error) (offset : Nat) :
    Prop where
  located : error.location = positionAt path text offset
  failed :
    (∃ evidence, error.cause = .lexical .stringUnclosed evidence ∧ offset = text.length) ∨
    ∃ fault word, (fault = .identifierBeginsWithNumber ∨ fault = .numberOutOfRange) ∧
      error.cause = .lexical fault { got := some (.text (String.ofList word)) } ∧
      AtomAt text offset word ∧
      ∃ tokens, tokenize (String.ofList (text.take offset)) path = .ok tokens

/-- What may end a lexeme still may if the text is cut behind it. -/
theorem Lexeme.Ends.cut {lexeme : Lexeme} {run rest : List Char}
    (ends : lexeme.Ends (run ++ rest)) : lexeme.Ends run := by
  -- Either the text ends there now, or its next character is the same as before.
  cases run with
  | nil => exact ⟨fun _ => rfl, fun _ => Or.inl rfl⟩
  | cons char run => exact ⟨ends.word, ends.comment⟩

namespace Reads

/-- What has been read is a run in front of the rest, and reads alike without the rest. -/
theorem cut {place final : Location} {text rest : List Char} {tokens : List Token}
    (read : Reads place text tokens final rest) :
    ∃ run, text = run ++ rest ∧ final = place.advanceOver run ∧ Reads place run tokens final [] := by
  -- What each clause takes off the text belongs to the run.
  induction read with
  | done => exact ⟨[], rfl, rfl, .done⟩
  | @blank place final char text rest tokens blank _ ih =>
    obtain ⟨run, rfl, rfl, alone⟩ := ih
    exact ⟨char :: run, rfl, rfl, .blank blank alone⟩
  | @token place final raw text rest lexeme tokens spelled ends _ ih =>
    obtain ⟨run, rfl, rfl, alone⟩ := ih
    refine ⟨raw ++ run, by rw [List.append_assoc], ?_, .token spelled ends.cut alone⟩
    simp

/-- Where reading stops in front of a word, it stops behind a delimiter. -/
theorem delimited {place final : Location} {text rest : List Char} {tokens : List Token}
    (read : Reads place text tokens final rest) {next : Char} (ahead : rest.head? = some next)
    (inside : isDelimiter next = false) :
    ∀ run, text = run ++ rest → ∀ last, run.getLast? = some last → isDelimiter last = true := by
  -- The run ends with a blank, or with a source text that closes with a delimiter.
  induction read with
  | done =>
    intro run same last final
    obtain rfl : run = [] := by simpa using same
    cases final
  | blank blank _ ih =>
    intro run same last final
    cases run with
    | nil => cases final
    | cons first run =>
      obtain ⟨rfl, behind⟩ := List.cons.inj same
      cases run with
      | nil =>
        obtain rfl : _ = last := by simpa using final
        exact isDelimiter_of_isBlank blank
      | cons second run => exact ih ahead (second :: run) behind last (by simpa using final)
  | token spelled ends more ih =>
    intro run same last final
    obtain ⟨behind, rfl, -, -⟩ := more.cut
    rw [← List.append_assoc] at same
    obtain rfl := List.append_cancel_right same
    cases behind with
    | cons second behind =>
      exact ih ahead (second :: behind) rfl last (by simpa [List.getLast?_append] using final)
    | nil =>
      rw [List.nil_append] at ends
      -- In front of a word neither a word nor a comment can end.
      obtain ⟨notWord, notComment⟩ := ends.apart ahead inside
      obtain ⟨char, closing, delimiter⟩ := spelled.closes notWord notComment
      rw [List.append_nil, closing] at final
      exact Option.some.inj final ▸ delimiter

/-- Every token that is read stands behind the position where reading begins, or at it. -/
theorem later {place final : Location} {text rest : List Char} {tokens : List Token}
    (read : Reads place text tokens final rest) :
    ∀ token ∈ tokens, token.location = place ∨ place.Before token.location := by
  -- Every clause moves the position on before the next token is read.
  induction read with
  | done => simp
  | blank _ _ ih =>
    intro token member
    rcases ih token member with same | before
    · exact Or.inr (same ▸ Location.before_advance _ _)
    · exact Or.inr ((Location.before_advance _ _).trans before)
  | @token place final raw text rest lexeme tokens spelled _ _ ih =>
    intro token member
    have moved := place.before_advanceOver spelled.ne_nil
    rcases List.mem_cons.mp member with rfl | member
    · exact Or.inl rfl
    · rcases ih token member with same | before
      · exact Or.inr (same ▸ moved)
      · exact Or.inr (moved.trans before)

/-- Tokens are read at increasing positions. -/
theorem pairwise_before {place final : Location} {text rest : List Char} {tokens : List Token}
    (read : Reads place text tokens final rest) :
    tokens.Pairwise fun first second => first.location.Before second.location := by
  -- The induction is on the reading, as every token has some source text to move over.
  induction read with
  | done => exact .nil
  | blank _ _ ih => exact ih
  | @token place final raw text rest lexeme tokens spelled _ more ih =>
    have moved := place.before_advanceOver spelled.ne_nil
    apply List.Pairwise.cons _ ih
    intro token member
    -- The next tokens are read from a later position on.
    rcases more.later token member with same | before
    · exact same ▸ moved
    · exact moved.trans before

/-- Blanks in front do not change where tokens start. -/
theorem startsFrom_blank {text : List Char} {offset : Nat} {char : Char} {rest : List Char}
    (ahead : text.drop offset = char :: rest) (blank : isBlank char = true) (tokens : List Token) :
    startsFrom text offset tokens = startsFrom text (offset + 1) tokens := by
  -- Only the first token looks at the offset.
  cases tokens with
  | nil => rfl
  | cons token tokens =>
    have further : text.drop (offset + 1) = rest := by
      rw [← List.drop_drop, ahead]
      rfl
    -- The blank is counted among those in front of the token, or passed before.
    have same : offset + ((text.drop offset).takeWhile isBlank).length =
        offset + 1 + ((text.drop (offset + 1)).takeWhile isBlank).length := by
      rw [ahead, further, List.takeWhile_cons_of_pos blank, List.length_cons]
      omega
    simp only [startsFrom, same]

/-- Each token stands where it starts in the text. -/
theorem standsAt {place final : Location} {text rest : List Char} {tokens : List Token}
    (read : Reads place text tokens final rest) (path : Option Path) :
    ∀ before, place = positionAt path (before ++ text) before.length →
      List.Forall₂ (Token.StandsAt path (before ++ text)) tokens
        (startsFrom (before ++ text) before.length tokens) := by
  -- What has been read moves to the part before, which leaves the whole text as it is.
  induction read with
  | done => exact fun _ _ => .nil
  | @blank place final char text rest tokens blank _ ih =>
    intro before here
    subst here
    have moved := positionAt_append path before [char] text
    have further := ih (before ++ [char]) (by simpa [Location.advanceOver] using moved.symm)
    have ahead : (before ++ char :: text).drop before.length = char :: text := by simp
    rw [startsFrom_blank ahead blank]
    simpa using further
  | @token place final raw text rest lexeme tokens spelled ends _ ih =>
    intro before here
    subst here
    have moved := positionAt_append path before raw text
    have further := ih (before ++ raw) (by simpa using moved.symm)
    -- A source text opens with no blank, so the token starts right here.
    have noBlanks : (raw ++ text).takeWhile isBlank = [] := by
      obtain ⟨char, behind, opened, blank, -⟩ := spelled.opens
      simp [opened, blank]
    simp only [startsFrom, List.drop_left, noBlanks, List.length_nil, Nat.add_zero]
    refine .cons ⟨rfl, by simp, offsetIn_positionAt path (by simp)⟩ ?_
    simpa using further

end Reads

/-- A text reads alike from a position that has been moved. -/
theorem Reads.relocate {move : Location → Location} (uniform : Location.Uniform move)
    {place final : Location} {text rest : List Char} {tokens : List Token}
    (read : Reads place text tokens final rest) :
    Reads (move place) text (tokens.map (Token.relocate move)) (move final) rest := by
  -- The grammar does not look at positions, and every clause moves them in the same way.
  induction read with
  | done => exact .done
  | blank blank _ ih => exact .blank blank (uniform _ _ ▸ ih)
  | token spelled ends _ ih => exact .token spelled ends (uniform.advanceOver _ _ ▸ ih)

/-- What cannot be read cannot be read from a position that has been moved either. -/
theorem Refuses.relocate {move : Location → Location} (uniform : Location.Uniform move)
    {place : Location} {text : List Char} {error : Error} (refused : Refuses place text error) :
    Refuses (move place) text (error.relocate move) := by
  -- The reasons do not look at the position either, which only the error carries.
  cases refused with
  | unclosed endless =>
    have same := @Refuses.unclosed (move place) _ endless
    rw [uniform.advanceOver] at same
    exact same
  | misread inside ends starts noLiteral => exact .misread inside ends starts noLiteral
  | excessive literal ends excessive => exact .excessive literal ends excessive

/-- A text reads alike as that of another file. -/
theorem Reads.withPath {place final : Location} {text rest : List Char} {tokens : List Token}
    (read : Reads place text tokens final rest) (path : Option Path) :
    Reads (place.withPath path) text (tokens.map (Token.withPath · path)) (final.withPath path)
      rest :=
  -- The path is one of the things about a location that moving leaves alone.
  read.relocate (Location.uniform_withPath path)

/-- What cannot be read cannot be read in the text of another file either. -/
theorem Refuses.withPath {place : Location} {text : List Char} {error : Error}
    (refused : Refuses place text error) (path : Option Path) :
    Refuses (place.withPath path) text (error.withPath path) :=
  refused.relocate (Location.uniform_withPath path)

/-- Reading a text from its start stops at the position of the offset behind what was read. -/
theorem Reads.stops_at {path : Option Path} {place : Location} {text run rest : List Char}
    {tokens : List Token} (read : Reads { path } text tokens place rest) (parts : text = run ++ rest) :
    place = positionAt path text run.length := by
  -- The reading has moved over the part that it has passed, and that part is a prefix of the text.
  obtain ⟨other, same, moved, -⟩ := read.cut
  obtain rfl := List.append_cancel_right (parts.symm.trans same)
  have here := positionAt_append path [] run rest
  simp only [List.nil_append, List.length_nil, positionAt_zero, ← parts] at here
  rw [here, moved]

/-- A word in front of which reading stops stands there as an atom. -/
theorem Reads.atomAt {place final : Location} {text run word rest : List Char}
    {tokens : List Token} (read : Reads place text tokens final (word ++ rest))
    (parts : text = run ++ (word ++ rest)) (filled : word ≠ [])
    (inside : ∀ char ∈ word, isDelimiter char = false) (ends : endsAtom rest.head? = true) :
    AtomAt text run.length word := by
  -- The reading has ended in front of the word, so nothing before it goes on with it.
  refine ⟨filled, inside, run, rest, parts, rfl, ?_, ends⟩
  obtain ⟨next, more, rfl, -, delimiter⟩ := opens_of_inside filled inside
  exact read.delimited rfl delimiter run parts

/-- What was read before reading stopped is what the text up to there has as tokens. -/
theorem Reads.tokenize_take {path : Option Path} {place : Location} {text run rest : List Char}
    {tokens : List Token} (read : Reads { path } text tokens place rest) (parts : text = run ++ rest) :
    tokenize (String.ofList (text.take run.length)) path = .ok tokens := by
  -- What has been read is read alike when nothing follows it.
  obtain ⟨other, same, -, alone⟩ := read.cut
  obtain rfl := List.append_cancel_right (parts.symm.trans same)
  rw [parts, List.take_left]
  exact tokenize_of_reads (by simpa using alone)

/-- An error stands where reading failed. -/
theorem Reads.error_standsAt {path : Option Path} {place : Location} {text rest : List Char}
    {tokens : List Token} {error : Error} (read : Reads { path } text tokens place rest)
    (refused : Refuses place rest error) : ∃ offset, error.StandsAt path text offset := by
  -- The case is the reason for the error. A string without an end is told from the end of the text, and the
  -- others from where they stand.
  obtain ⟨run, parts, -, -⟩ := read.cut
  have here := read.stops_at parts
  have before := read.tokenize_take parts
  cases refused with
  | @unclosed contents endless =>
    -- The reader has gone to the end of the text in search of the quote.
    refine ⟨text.length, ?_, Or.inl ⟨_, rfl, rfl⟩⟩
    have := positionAt_append path run ('"' :: contents) []
    rw [List.append_nil, ← parts, ← here] at this
    exact this.symm
  | @misread word behind inside ends starts noLiteral =>
    have atom := read.atomAt parts (ne_nil_of_startsNumber starts) inside ends
    exact ⟨run.length, here, Or.inr ⟨_, word, Or.inl rfl, rfl, atom, tokens, before⟩⟩
  | excessive literal ends excessive =>
    have atom := read.atomAt parts literal.chars_ne_nil literal.inside ends
    exact ⟨run.length, here, Or.inr ⟨_, literal.chars, Or.inr rfl, rfl, atom, tokens, before⟩⟩

/-- The path of a text shows in locations alone. -/
theorem tokenize_withPath (text : String) (path other : Option Path) : tokenize text other =
    ((tokenize text path).map (List.map (Token.withPath · other))).mapError
      (Error.withPath · other) := by
  -- The outcome under one path is known, and the reading behind it is moved to the other.
  cases result : tokenize text path with
  | ok tokens =>
    -- The text under another path reads as the same tokens, with that path in their locations.
    obtain ⟨final, read⟩ := tokenize_eq_ok_iff.mp result
    exact tokenize_of_reads (read.withPath other)
  | error error =>
    -- It cannot be read on at the same place either, for the same reason.
    obtain ⟨tokens, place, rest, read, refused⟩ := tokenize_eq_error_iff.mp result
    exact tokenize_of_refuses (read.withPath other) (refused.withPath other)

/-- Locations are faithful. Tokens stand at increasing positions, each at that of the offset where it
starts; errors stand where reading failed; and the file of a text shows in locations alone. -/
theorem tokenize_locations (text : String) (path : Option Path) :
    (∀ tokens, tokenize text path = .ok tokens →
      List.Forall₂ (Token.StandsAt path text.toList) tokens (startsFrom text.toList 0 tokens) ∧
      tokens.Pairwise fun first second => first.location.Before second.location) ∧
    (∀ error, tokenize text path = .error error →
      ∃ offset, error.StandsAt path text.toList offset) ∧
    ∀ other, tokenize text other =
      ((tokenize text path).map (List.map (Token.withPath · other))).mapError
        (Error.withPath · other) := by
  -- The tokens and the error come from one reading, and each of the three parts is a fact about readings.
  refine ⟨?_, ?_, tokenize_withPath text path⟩
  · intro tokens found
    obtain ⟨final, read⟩ := tokenize_eq_ok_iff.mp found
    have stands := read.standsAt path [] (positionAt_zero path _).symm
    exact ⟨by simpa using stands, read.pairwise_before⟩
  · intro error failed
    obtain ⟨tokens, place, rest, read, refused⟩ := tokenize_eq_error_iff.mp failed
    exact read.error_standsAt refused

end Sexpr
