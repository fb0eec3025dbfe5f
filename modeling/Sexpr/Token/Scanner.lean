import Sexpr.Error
import Sexpr.Token.Lexical

/-! A scan through a source text: readers for each kind of token, and the loop that drives them. -/

namespace Sexpr

/-- The state of a scan: what lies behind, nearest first, what lies ahead, and the tokens so far. -/
structure Scanner where
  past : List Char := []
  rest : List Char
  location : Location := {}
  tokens : Array Token := #[]
deriving Inhabited

namespace Scanner

/-- What a step of a scan leaves: the state, and its result or an error. -/
abbrev Outcome (α : Type) := Scanner × Except Error α

/-- The start of a scan. -/
def start (text : String) (path : Option Path := none) : Scanner where
  rest := text.toList
  location := { path }

/-- How many characters lie behind. -/
def index (scanner : Scanner) : Nat := scanner.past.length

/-- The whole text of a scan. -/
def text (scanner : Scanner) : List Char := scanner.past.reverse ++ scanner.rest

/-- Whether nothing lies ahead. -/
def atEnd (scanner : Scanner) : Bool := scanner.rest.isEmpty

/-- A look at a position before the text. -/
inductive PeekFault where
  | beforeText
deriving DecidableEq, Repr

/-- The words for a look at a position before the text. -/
def PeekFault.message : PeekFault → String
  | beforeText => "string index out of range"

/-- The character at a distance ahead, if the text is that long.

A position before the text counts from the end of the text, once. -/
def peek (scanner : Scanner) (offset : Int := 0) : Except PeekFault (Option Char) :=
  -- The offset may be negative, and the text then counts from its end.
  let position := scanner.index + offset
  let counted := if position < 0 then position + scanner.text.length else position
  if counted < 0 then .error .beforeText else .ok scanner.text[counted.toNat]?

/-- Moves over characters ahead. -/
def skip (scanner : Scanner) (count : Nat) : Scanner :=
  let passed := scanner.rest.take count
  { scanner with
    past := passed.reverse ++ scanner.past
    rest := scanner.rest.drop count
    location := scanner.location.advanceOver passed }

/-- Moves over the source text of a token and keeps the token. -/
def emit (scanner : Scanner) (lexeme : Lexeme) (raw : List Char) : Outcome Unit :=
  -- The position is that of the first character, before the scan moves on.
  let token : Token := { lexeme, raw := String.ofList raw, location := scanner.location }
  ({ scanner.skip raw.length with tokens := scanner.tokens.push token }, .ok ())

/-- Stays at a state with an error at a position. -/
def fail {α : Type} (scanner : Scanner) (location : Location) (fault : LexicalFault)
    (evidence : Evidence := {}) : Outcome α :=
  (scanner, .error ⟨.lexical fault evidence, location⟩)

/-- Moves over one character. -/
def advance (scanner : Scanner) : Outcome Char :=
  match scanner.rest with
  | [] => scanner.fail scanner.location .stackUnderflow
  | char :: _ => (scanner.skip 1, .ok char)

/-- Moves to the next delimiter. -/
def consumeAtom (scanner : Scanner) : Scanner :=
  scanner.skip (splitAtom scanner.rest).1.length

/-- The lexical class that the next character suggests. -/
def classify (scanner : Scanner) : TokenKind := Sexpr.classify scanner.rest

/-- Reads a comment up to the end of its line. -/
def readComment (scanner : Scanner) : Outcome Unit :=
  match scanner.rest with
  | ';' :: rest =>
    -- The carriage return belongs to the source text, though not to the comment.
    let line := (splitLine rest).1
    scanner.emit (.atom (.comment (String.ofList (dropReturn line)))) (';' :: line)
  | _ => scanner.fail scanner.location .commentNotStarted

/-- Reads a string. One that is never closed takes the scan to the end of the text. -/
def readString (scanner : Scanner) : Outcome Unit :=
  match scanner.rest with
  | '"' :: rest =>
    match splitString rest with
    | some (contents, _) =>
      scanner.emit (.atom (.string (String.ofList contents))) ('"' :: contents ++ ['"'])
    | none =>
      -- The closing quote is missed at the end of the text, and the error is located there.
      let finished := scanner.skip scanner.rest.length
      finished.fail finished.location .stringUnclosed
        { partialContents := some (.text (String.ofList rest)) }
  | _ => scanner.fail scanner.location .stringNotStarted

/-- Reads a number. What follows its literal must be a delimiter. -/
def readNumber (scanner : Scanner) : Outcome Unit :=
  if startsNumber scanner.rest then
    let (literal, rest) := splitLiteral scanner.rest
    -- What goes on behind the literal makes a word of it that is no number.
    if endsAtom rest.head? then
      match readLiteral literal with
      | .infinity _ =>
        (scanner.skip literal.length).fail scanner.location .numberOutOfRange
          { got := some (.text (String.ofList literal)) }
      | number => scanner.emit (.atom (.number number)) literal
    else
      let word := literal ++ (splitAtom rest).1
      (scanner.skip word.length).fail scanner.location .identifierBeginsWithNumber
        { got := some (.text (String.ofList word)) }
  else
    scanner.fail scanner.location .wrongType
      { expected := some (.tokenKind .number), got := some (.tokenKind scanner.classify) }

/-- Reads a word: an identifier or a truth value. -/
def readIdentifier (scanner : Scanner) : Outcome Unit :=
  if endsAtom scanner.rest.head? then scanner.fail scanner.location .identifierNotStarted
  else
    -- Truth values are words too, and told apart by what they spell.
    let word := (splitAtom scanner.rest).1
    if startsNumber scanner.rest then
      (scanner.skip word.length).fail scanner.location .identifierBeginsWithNumber
        { got := some (.text (String.ofList word)) }
    else scanner.emit (.atom (wordAtom word)) word

/-- Reads one token, or moves over one blank. -/
def step (scanner : Scanner) : Outcome Unit :=
  match scanner.rest with
  | [] => (scanner, .ok ())
  | char :: _ =>
    if isBlank char then (scanner.skip 1, .ok ())
    else if char = '(' then scanner.emit .listOpen [char]
    else if char = ')' then scanner.emit .listClose [char]
    else if char = ';' then scanner.readComment
    else if char = '"' then scanner.readString
    else if startsNumber scanner.rest then scanner.readNumber
    else scanner.readIdentifier

/-- An outcome that is an error or has less ahead than there was. -/
def Progress (before : List Char) (outcome : Outcome Unit) : Prop :=
  ∀ next, outcome = (next, .ok ()) → next.rest.length < before.length

/-- A failure makes progress by not going on. -/
theorem progress_fail (before : List Char) (scanner : Scanner) (location : Location)
    (fault : LexicalFault) (evidence : Evidence) :
    Progress before (scanner.fail location fault evidence) := by
  intro next same
  simp [fail] at same

/-- A token that is not empty makes progress where something lies ahead. -/
theorem progress_emit {scanner : Scanner} {raw : List Char} (lexeme : Lexeme)
    (ahead : scanner.rest ≠ []) (written : 0 < raw.length) :
    Progress scanner.rest (scanner.emit lexeme raw) := by
  intro next same
  have positive := List.length_pos_iff.mpr ahead
  simp only [emit, skip, Prod.mk.injEq] at same
  rw [← same.1]
  simp only [List.length_drop]
  omega

/-- A step makes progress before the end of the text. -/
theorem progress_step {scanner : Scanner} (ahead : scanner.rest ≠ []) :
    Progress scanner.rest scanner.step := by
  -- Every branch skips a blank, keeps a token that is not empty, or fails.
  unfold step
  split
  · contradiction
  · rename_i char tail text
    split
    · intro next same
      simp only [skip, Prod.mk.injEq] at same
      rw [← same.1, text]
      simp
    split
    · exact progress_emit _ ahead (by simp)
    split
    · exact progress_emit _ ahead (by simp)
    split
    · unfold readComment
      split
      · exact progress_emit _ ahead (by simp)
      · exact progress_fail _ _ _ _ _
    split
    · unfold readString
      split
      · split
        · exact progress_emit _ ahead (by simp)
        · exact progress_fail _ _ _ _ _
      · exact progress_fail _ _ _ _ _
    split
    · rename_i starts
      simp only [readNumber, starts, if_true]
      split
      · split
        · exact progress_fail _ _ _ _ _
        · exact progress_emit _ ahead (splitLiteral_pos starts)
      · exact progress_fail _ _ _ _ _
    · unfold readIdentifier
      split
      · exact progress_fail _ _ _ _ _
      · rename_i inside
        exact progress_emit _ ahead (splitAtom_pos (by simpa using inside))

/-- Reads all that lies ahead. -/
def run (scanner : Scanner) : Outcome Unit :=
  if _ : scanner.rest = [] then (scanner, .ok ())
  else
    match _ : scanner.step with
    | (next, .ok ()) => next.run
    | (next, .error error) => (next, .error error)
termination_by scanner.rest.length
decreasing_by exact progress_step ‹_› _ ‹_›

end Scanner

/-- The tokens of a text in source order. -/
def tokenize (text : String) (path : Option Path := none) : Except Error (List Token) :=
  match (Scanner.start text path).run with
  | (scanner, .ok ()) => .ok scanner.tokens.toList
  | (_, .error error) => .error error

end Sexpr
