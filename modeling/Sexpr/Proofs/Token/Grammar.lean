import Sexpr.Proofs.Number.Literal
import Sexpr.Token.Lexical

/-! The grammar of tokens: which texts spell which lexeme, and what may stand behind each. -/

namespace Sexpr

/-- The classes whose tokens run up to the next delimiter. -/
def TokenKind.isWord : TokenKind → Bool
  | .bool | .number | .identifier => true
  | .string | .comment | .listOpen | .listClose => false

/-- The contents of a string: each backslash takes the next character with it, and no other quote occurs. -/
inductive StringBody : List Char → Prop
  | nil : StringBody []
  | plain {char : Char} {body : List Char} (notQuote : char ≠ '"') (notEscape : char ≠ '\\')
      (complete : StringBody body) : StringBody (char :: body)
  | escaped {char : Char} {body : List Char} (complete : StringBody body) :
      StringBody ('\\' :: char :: body)

/-- A word that names: a run without delimiters that is no truth value and does not begin like a number. -/
structure IsName (word : List Char) : Prop where
  filled : word ≠ []
  inside : ∀ char ∈ word, isDelimiter char = false
  notNumber : startsNumber word = false
  notTrue : word ≠ "true".toList
  notFalse : word ≠ "false".toList

/-- The source texts of each lexeme. -/
inductive Spells : List Char → Lexeme → Prop
  | listOpen : Spells ['('] .listOpen
  | listClose : Spells [')'] .listClose
  | comment {line : List Char} (inLine : '\n' ∉ line) :
      Spells (';' :: line) (.atom (.comment (String.ofList (dropReturn line))))
  | string {body : List Char} (complete : StringBody body) :
      Spells ('"' :: body ++ ['"']) (.atom (.string (String.ofList body)))
  | number (literal : Literal) {value : Binary64} (denotes : literal.Denotes value) :
      Spells literal.chars (.atom (.number value))
  | bool (value : Bool) :
      Spells (if value then "true".toList else "false".toList) (.atom (.bool value))
  | identifier {word : List Char} (name : IsName word) :
      Spells word (.atom (.identifier (String.ofList word)))

/-- What may follow the source text of a lexeme: a delimiter behind a word, a line feed behind a
comment, and anything behind the rest; each may also end the text. -/
structure Lexeme.Ends (lexeme : Lexeme) (rest : List Char) : Prop where
  word : lexeme.kind.isWord = true → endsAtom rest.head? = true
  comment : lexeme.kind = .comment → rest.head? = none ∨ rest.head? = some '\n'

/-- A blank is a delimiter. -/
theorem isDelimiter_of_isBlank {char : Char} (blank : isBlank char = true) :
    isDelimiter char = true := by
  simp [isDelimiter, blank]

/-- What may stand within an atom is no blank. -/
theorem isBlank_of_inside {char : Char} (inside : isDelimiter char = false) :
    isBlank char = false := by
  by_contra blank
  simp [isDelimiter_of_isBlank (by simpa using blank)] at inside

/-- A digit is not a delimiter. -/
theorem isDelimiter_of_isDigit {char : Char} (digit : char.isDigit = true) :
    isDelimiter char = false := by
  -- None of the eight delimiters is a digit.
  by_contra delimiter
  simp only [isDelimiter, isBlank, Bool.not_eq_false, Bool.or_eq_true, beq_iff_eq] at delimiter
  rcases delimiter with ((((((rfl | rfl) | rfl) | rfl) | rfl) | rfl) | rfl) | rfl <;>
    simp at digit

/-- A sign is not a delimiter. -/
theorem isDelimiter_of_isSign {char : Char} (sign : isSign char = true) :
    isDelimiter char = false := by
  -- There are two signs, and neither is a delimiter.
  simp only [isSign, Bool.or_eq_true, beq_iff_eq] at sign
  rcases sign with rfl | rfl <;> decide

/-- A literal holds no delimiter. -/
theorem Literal.inside (literal : Literal) : ∀ char ∈ literal.chars, isDelimiter char = false := by
  -- A literal is made of a sign, digits and a point, and none of these ends an atom.
  intro char member
  rcases literal.mem_chars member with sign | digit | rfl
  · exact isDelimiter_of_isSign sign
  · exact isDelimiter_of_isDigit digit
  · decide

/-- Where an atom has to end, neither a digit nor a point goes on. -/
theorem stops_of_endsAtom {rest : List Char} (ends : endsAtom rest.head? = true) :
    Stops (fun char => char.isDigit || char == '.') rest := by
  -- What ends an atom is the end of the text or a delimiter.
  intro char first
  rw [first] at ends
  by_contra more
  simp only [Bool.not_eq_false, Bool.or_eq_true, beq_iff_eq] at more
  -- A digit or a point would go on with the atom, as neither is a delimiter.
  rcases more with digit | rfl
  · simp [endsAtom, isDelimiter_of_isDigit digit] at ends
  · revert ends
    decide

/-- A run without delimiters that ends as an atom is split off whole. -/
theorem splitAtom_append {word rest : List Char} (inside : ∀ char ∈ word, isDelimiter char = false)
    (ends : endsAtom rest.head? = true) : splitAtom (word ++ rest) = (word, rest) := by
  -- The character behind the run is a delimiter, so the split stops there.
  apply splitWhile_append
  · intro char member
    simp [inside char member]
  intro char first
  rw [first] at ends
  simpa [endsAtom] using ends

/-- What is split off as an atom is a run without delimiters that ends as one. -/
theorem splitAtom_eq (text : List Char) : ∃ word rest, splitAtom text = (word, rest) ∧
    text = word ++ rest ∧ (∀ char ∈ word, isDelimiter char = false) ∧
      endsAtom rest.head? = true := by
  -- The general split gives the two parts, and its condition says what each is like.
  obtain ⟨word, rest, split, parts, inside, stops⟩ := splitWhile_eq (!isDelimiter ·) text
  refine ⟨word, rest, split, parts, fun char member => by simpa using inside char member, ?_⟩
  cases first : rest.head? with
  | none => rfl
  | some char => simpa [endsAtom] using stops char first

/-- A line that ends with the text or before a line feed is split off whole. -/
theorem splitLine_append {line rest : List Char} (inLine : '\n' ∉ line)
    (ends : rest.head? = none ∨ rest.head? = some '\n') :
    splitLine (line ++ rest) = (line, rest) := by
  -- The line satisfies the condition of the split, and what is behind it does not.
  apply splitWhile_append
  · intro char member
    simpa using fun same : char = '\n' => inLine (same ▸ member)
  · intro char first
    -- The line feed itself is left to the rest.
    rcases ends with ended | fed
    · simp [first] at ended
    · simpa [first] using fed

/-- What is split off as a line holds no line feed and ends at one or with the text. -/
theorem splitLine_eq (text : List Char) : ∃ line rest, splitLine text = (line, rest) ∧
    text = line ++ rest ∧ '\n' ∉ line ∧ (rest.head? = none ∨ rest.head? = some '\n') := by
  -- The general split gives the two parts, and its condition says where the line ends.
  obtain ⟨line, rest, split, parts, inside, stops⟩ := splitWhile_eq (· != '\n') text
  refine ⟨line, rest, split, parts, fun member => by simpa using inside '\n' member, ?_⟩
  cases first : rest.head? with
  | none => exact Or.inl rfl
  | some char => exact Or.inr (by simpa using stops char first)

/-- A string is split off before the first quote that ends its contents, and only there. -/
theorem splitString_eq_some {text body rest : List Char} :
    splitString text = some (body, rest) ↔ StringBody body ∧ text = body ++ '"' :: rest := by
  -- The split is the reading of the contents, and the contents have one clause for each of its branches.
  constructor
  · intro split
    -- The split follows the contents, so its branches are the clauses of theirs.
    fun_induction splitString text generalizing body with
    | case1 => simp at split
    | case2 rest =>
      simp only [Option.some.injEq, Prod.mk.injEq] at split
      obtain ⟨rfl, rfl⟩ := split
      exact ⟨.nil, rfl⟩
    | case3 char behind ih =>
      obtain ⟨⟨inner, left⟩, found, same⟩ := Option.map_eq_some_iff.mp split
      simp only [Prod.mk.injEq] at same
      obtain ⟨rfl, rfl⟩ := same
      obtain ⟨complete, rfl⟩ := ih found
      exact ⟨.escaped complete, rfl⟩
    | case4 char behind notQuote notEscape ih =>
      obtain ⟨⟨inner, left⟩, found, same⟩ := Option.map_eq_some_iff.mp split
      simp only [Prod.mk.injEq] at same
      obtain ⟨rfl, rfl⟩ := same
      obtain ⟨complete, rfl⟩ := ih found
      -- Something stands behind the character, so it cannot be a backslash.
      refine ⟨.plain notQuote (fun escape => ?_) complete, rfl⟩
      cases inner with
      | nil => exact notEscape _ _ escape rfl
      | cons next more => exact notEscape _ _ escape rfl
  · intro whole
    obtain ⟨complete, rfl⟩ := whole
    -- Each clause of the contents is one branch of the split.
    induction complete with
    | nil => simp [splitString]
    | plain notQuote notEscape _ ih =>
      rw [List.cons_append, splitString, ih]
      · rfl
      · exact notQuote
      · exact fun _ _ escape _ => notEscape escape
    | escaped _ ih => simp [splitString, ih]

/-- A word opens with a character that is neither a delimiter nor, therefore, a blank. -/
theorem opens_of_inside {word : List Char} (filled : word ≠ [])
    (inside : ∀ char ∈ word, isDelimiter char = false) :
    ∃ char rest, word = char :: rest ∧ isBlank char = false ∧ isDelimiter char = false := by
  -- The first character of the word is one of those inside it.
  cases word with
  | nil => exact absurd rfl filled
  | cons char rest =>
    have notDelimiter := inside char (by simp)
    exact ⟨char, rest, rfl, isBlank_of_inside notDelimiter, notDelimiter⟩

/-- A literal is not empty. -/
theorem Literal.chars_ne_nil (literal : Literal) : literal.chars ≠ [] := by
  -- A literal has a digit in front of its point, or of its end.
  simp [chars, literal.opens]

/-- A source text opens with a character that is no blank, and with a delimiter exactly if it is no word. -/
theorem Spells.opens {raw : List Char} {lexeme : Lexeme} (spelled : Spells raw lexeme) :
    ∃ char rest, raw = char :: rest ∧ isBlank char = false ∧
      isDelimiter char = !lexeme.kind.isWord := by
  -- List ends, comments and strings open with a delimiter of their own, and words hold none.
  cases spelled with
  | listOpen => exact ⟨_, _, rfl, by decide, by decide⟩
  | listClose => exact ⟨_, _, rfl, by decide, by decide⟩
  | comment inLine => exact ⟨_, _, rfl, by decide, rfl⟩
  | string complete => exact ⟨_, _, rfl, by decide, rfl⟩
  | number literal denotes => exact opens_of_inside literal.chars_ne_nil literal.inside
  | bool value => cases value <;> exact ⟨_, _, rfl, by decide, by decide⟩
  | identifier name => exact opens_of_inside name.filled name.inside

/-- A source text is not empty. -/
theorem Spells.ne_nil {raw : List Char} {lexeme : Lexeme} (spelled : Spells raw lexeme) :
    raw ≠ [] := by
  obtain ⟨char, behind, rfl, -⟩ := spelled.opens
  simp

/-- A source text that is neither a word nor a comment closes with a delimiter. -/
theorem Spells.closes {raw : List Char} {lexeme : Lexeme} (spelled : Spells raw lexeme)
    (notWord : lexeme.kind.isWord = false) (notComment : lexeme.kind ≠ .comment) :
    ∃ char, raw.getLast? = some char ∧ isDelimiter char = true := by
  -- Only list ends and strings are neither a word nor a comment.
  cases spelled with
  | listOpen => exact ⟨_, rfl, by decide⟩
  | listClose => exact ⟨_, rfl, by decide⟩
  | comment inLine => exact absurd rfl notComment
  | string complete => exact ⟨'"', List.getLast?_concat, by decide⟩
  | number literal denotes => cases notWord
  | bool value => cases notWord
  | identifier name => cases notWord

/-- Only a comment can end with a line feed. -/
theorem Spells.getLast?_ne_lineFeed {raw : List Char} {lexeme : Lexeme} (spelled : Spells raw lexeme)
    (notComment : lexeme.kind ≠ .comment) : raw.getLast? ≠ some '\n' := by
  -- A line feed is a delimiter, so no word holds one, and the other tokens end with a mark of their own.
  have within {word : List Char} (inside : ∀ char ∈ word, isDelimiter char = false) :
      word.getLast? ≠ some '\n' := by
    intro last
    have among := inside '\n' (List.mem_of_getLast? last)
    cases among
  cases spelled with
  | listOpen => decide
  | listClose => decide
  | comment inLine => exact absurd rfl notComment
  | string complete =>
    rw [List.getLast?_concat]
    decide
  | number literal denotes => exact within literal.inside
  | bool value => cases value <;> decide
  | identifier name => exact within name.inside

/-- A word only needs a delimiter behind it. -/
theorem Lexeme.ends_of_word {lexeme : Lexeme} {rest : List Char}
    (word : lexeme.kind.isWord = true) (ends : endsAtom rest.head? = true) : lexeme.Ends rest := by
  -- A token has two conditions on what follows, and the one on comments is void here.
  constructor
  · intro _
    exact ends
  · intro comment
    -- A comment is no word.
    rw [comment] at word
    cases word

/-- A comment only needs a line feed behind it, or the end of the text. -/
theorem Lexeme.ends_of_comment {lexeme : Lexeme} {rest : List Char}
    (comment : lexeme.kind = .comment)
    (ends : rest.head? = none ∨ rest.head? = some '\n') : lexeme.Ends rest := by
  -- A token has two conditions on what follows, and the one on words is void here.
  constructor
  · intro word
    rw [comment] at word
    cases word
  · intro _
    exact ends

/-- Behind a lexeme that is neither a word nor a comment anything may stand. -/
theorem Lexeme.ends_of_apart {lexeme : Lexeme} (notWord : lexeme.kind.isWord = false)
    (notComment : lexeme.kind ≠ .comment) (rest : List Char) : lexeme.Ends rest := by
  -- Neither condition on what follows applies.
  constructor
  · intro word
    simp [notWord] at word
  · intro comment
    exact absurd comment notComment

/-- In front of a word only a lexeme ends that is neither a word nor a comment. -/
theorem Lexeme.Ends.apart {lexeme : Lexeme} {rest : List Char} (ends : lexeme.Ends rest)
    {next : Char} (ahead : rest.head? = some next) (inside : isDelimiter next = false) :
    lexeme.kind.isWord = false ∧ lexeme.kind ≠ .comment := by
  -- Each of the two conditions would put a delimiter where there is none.
  constructor
  · -- A word would need a delimiter behind it.
    by_contra word
    have ended := ends.word (by simpa using word)
    simp [ahead, endsAtom, inside] at ended
  · -- A comment would need a line feed, which is a delimiter too.
    intro comment
    have ended := ends.comment comment
    simp only [ahead, reduceCtorEq, Option.some.injEq, false_or] at ended
    subst ended
    cases inside

end Sexpr
