import Sexpr.Proofs.Number.Numeral
import Sexpr.Proofs.Token.Locations

/-! Failures: a scan that cannot go on stops at a string without an end or at a word that begins like a
number and stands for none. -/

namespace Sexpr

/-- Why a text has no token at an offset, and what the error for it remembers.

Only three of the lexical faults occur; the others guard readers that are never entered wrongly. -/
inductive Unreadable (text : List Char) (offset : Nat) : LexicalFault → Evidence → Prop
  | unclosed {contents : List Char} (ahead : text.drop offset = '"' :: contents)
      (endless : ∀ body rest, StringBody body → contents ≠ body ++ '"' :: rest) :
      Unreadable text offset .stringUnclosed
        { partialContents := some (.text (String.ofList contents)) }
  | misread {word : List Char} (atom : AtomAt text offset word)
      (starts : startsNumber word = true) (noLiteral : ∀ literal : Literal, literal.chars ≠ word) :
      Unreadable text offset .identifierBeginsWithNumber
        { got := some (.text (String.ofList word)) }
  | excessive (literal : Literal) (atom : AtomAt text offset literal.chars)
      (excessive : literal.Excessive) :
      Unreadable text offset .numberOutOfRange
        { got := some (.text (String.ofList literal.chars)) }

/-- A scan that has failed at an offset of a text: no blank stands there, the text up to there has the
tokens that the scan has kept, and none can be read from there on. -/
structure Scanner.FailedAt (scanner : Scanner) (path : Option Path) (text : List Char)
    (error : Error) (offset : Nat) : Prop where
  ahead : ∃ char, text[offset]? = some char ∧ isBlank char = false
  kept : tokenize (String.ofList (text.take offset)) path = .ok scanner.tokens.toList
  unreadable : ∃ fault evidence, error.cause = .lexical fault evidence ∧
    Unreadable text offset fault evidence

/-- Where reading is refused the text has no token, for the reason that the error gives. -/
theorem Reads.unreadable {place final : Location} {text run rest : List Char} {tokens : List Token}
    {error : Error} (read : Reads place text tokens final rest) (refused : Refuses final rest error)
    (parts : text = run ++ rest) : ∃ fault evidence, error.cause = .lexical fault evidence ∧
      Unreadable text run.length fault evidence := by
  -- Each reason of the grammar is the one of the text, seen from the offset.
  cases refused with
  | unclosed endless =>
    refine ⟨_, _, rfl, .unclosed ?_ endless⟩
    rw [parts, List.drop_left]
  | misread inside ends starts noLiteral =>
    have atom := read.atomAt parts (ne_nil_of_startsNumber starts) inside ends
    exact ⟨_, _, rfl, .misread atom starts noLiteral⟩
  | excessive literal ends excessive =>
    have atom := read.atomAt parts literal.chars_ne_nil literal.inside ends
    exact ⟨_, _, rfl, .excessive literal atom excessive⟩

/-- A scan fails where reading is refused, with the tokens that were read before. -/
theorem Reads.failedAt {path : Option Path} {text : String} {place : Location} {rest : List Char}
    {tokens : List Token} {error : Error} (read : Reads { path } text.toList tokens place rest)
    (refused : Refuses place rest error) :
    ∃ scanner offset, (Scanner.start text path).run = (scanner, .error error) ∧
      scanner.FailedAt path text.toList error offset := by
  -- The reading stops where the run does, so what it has passed gives the offset of the failure.
  obtain ⟨scanner, failed, kept⟩ := @Scanner.run_of_refuses (Scanner.start text path) _ _ _ _ read refused
  obtain ⟨run, parts, -, -⟩ := read.cut
  obtain ⟨char, behind, opened, blank⟩ := refused.opens
  refine ⟨scanner, run.length, failed, ⟨char, by simp [parts, opened], blank⟩, ?_,
    read.unreadable refused parts⟩
  -- A scan starts without tokens, so those at its end are the ones read.
  rw [kept, read.tokenize_take parts]
  simp [Scanner.start]

/-- Tokens are found, or the scan fails for one of three reasons at an offset up to which the text has
the tokens kept so far. In whatever state a number is read, its source text is a numeral. -/
theorem tokenize_ok_or_failedAt (text : String) (path : Option Path) :
    ((∃ tokens, tokenize text path = .ok tokens) ∨
      ∃ scanner error offset, tokenize text path = .error error ∧
        (Scanner.start text path).run = (scanner, .error error) ∧
        scanner.FailedAt path text.toList error offset) ∧
    ∀ scanner : Scanner, startsNumber scanner.rest = true →
      readNumeral (splitLiteral scanner.rest).1 =
        some (readLiteral (splitLiteral scanner.rest).1) := by
  -- A text reads to its end or stops at something that cannot be read, and the run follows the reading.
  constructor
  · rcases reads_cases { path } text.toList with
      ⟨tokens, final, read⟩ | ⟨tokens, place, rest, error, read, refused⟩
    · exact Or.inl ⟨tokens, tokenize_of_reads read⟩
    · obtain ⟨scanner, offset, failed, stopped⟩ := read.failedAt refused
      exact Or.inr ⟨scanner, error, offset, tokenize_of_refuses read refused, failed, stopped⟩
  · intro scanner starts
    -- What is split off where a number starts is a literal, and literals are numerals.
    obtain ⟨literal, rest, split, -⟩ := Literal.splitLiteral_eq starts
    rw [split]
    exact literal.readNumeral_chars

end Sexpr
