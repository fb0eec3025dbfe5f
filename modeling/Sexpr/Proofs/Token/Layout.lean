import Mathlib.Data.List.Chain
import Sexpr.Proofs.Token.Reads

/-! Layouts: the texts that have tokens are those made of their source texts with blanks between. -/

namespace Sexpr

/-- The value of a lexeme; the ends of lists have none. -/
def Lexeme.value? : Lexeme → Option Atom
  | .atom value => some value
  | .listOpen | .listClose => none

/-- What a token says apart from where it stands: its class, its source text, and its value. -/
def Token.entry (token : Token) : TokenKind × String × Option Atom :=
  (token.kind, token.raw, token.lexeme.value?)

/-- A token as a text writes it: its source text, what it means, and the blanks behind it. -/
structure Piece where
  raw : List Char
  lexeme : Lexeme
  gap : List Char

namespace Piece

/-- The characters that a piece adds to a text. -/
def chars (piece : Piece) : List Char := piece.raw ++ piece.gap

/-- The class, the source text and the value that a piece writes. -/
def entry (piece : Piece) : TokenKind × String × Option Atom :=
  (piece.lexeme.kind, String.ofList piece.raw, piece.lexeme.value?)

/-- The blanks between two tokens: some between two words, and first a line feed behind a comment. -/
structure Apart (first second : Piece) : Prop where
  words : first.lexeme.kind.isWord = true → second.lexeme.kind.isWord = true → first.gap ≠ []
  comment : first.lexeme.kind = .comment → first.gap.head? = some '\n'

end Piece

/-- A text is blanks and then pieces, each of which spells its lexeme and stands apart from the next.

A comment at the end needs no line feed, unless blanks follow it. -/
structure IsLayout (text lead : List Char) (pieces : List Piece) : Prop where
  parts : text = lead ++ pieces.flatMap Piece.chars
  lead : ∀ char ∈ lead, isBlank char = true
  gaps : ∀ piece ∈ pieces, ∀ char ∈ piece.gap, isBlank char = true
  spelled : ∀ piece ∈ pieces, Spells piece.raw piece.lexeme
  apart : pieces.IsChain Piece.Apart
  last : ∀ piece, pieces.getLast? = some piece → piece.lexeme.kind = .comment →
    piece.gap = [] ∨ piece.gap.head? = some '\n'

namespace IsLayout

/-- What stands behind the first source text may end its lexeme. -/
theorem ends {text lead : List Char} {piece : Piece} {pieces : List Piece}
    (layout : IsLayout text lead (piece :: pieces)) :
    piece.lexeme.Ends (piece.gap ++ pieces.flatMap Piece.chars) := by
  -- Blanks end every token, so the cases are whether there are any and whether a piece follows them.
  cases gap : piece.gap with
  | cons char blanks =>
    have blank : isBlank char = true := layout.gaps piece (by simp) char (by simp [gap])
    refine ⟨fun _ => isDelimiter_of_isBlank blank, fun comment => Or.inr ?_⟩
    cases pieces with
    | nil =>
      rcases layout.last piece rfl comment with empty | fed
      · simp [gap] at empty
      · simpa [gap] using fed
    | cons second more =>
      simpa [gap] using (List.isChain_cons_cons.mp layout.apart).1.comment comment
  | nil =>
    cases pieces with
    | nil => exact ⟨fun _ => rfl, fun _ => Or.inl rfl⟩
    | cons second more =>
      -- Without blanks between, the next piece is no word and opens with a delimiter.
      have apart := (List.isChain_cons_cons.mp layout.apart).1
      obtain ⟨char, behind, opened, -, delimiter⟩ := (layout.spelled second (by simp)).opens
      constructor
      · intro word
        have notWord : second.lexeme.kind.isWord = false := by
          by_contra other
          exact apart.words word (by simpa using other) gap
        simp [Piece.chars, opened, endsAtom, delimiter, notWord]
      · intro comment
        simpa [gap] using apart.comment comment

/-- What stands behind the first source text is a layout of the other pieces. -/
theorem behind {text lead : List Char} {piece : Piece} {pieces : List Piece}
    (layout : IsLayout text lead (piece :: pieces)) :
    IsLayout (piece.gap ++ pieces.flatMap Piece.chars) piece.gap pieces where
  -- Each condition on the pieces is asked of all of them, or of neighbours.
  parts := rfl
  lead := layout.gaps piece (by simp)
  gaps other member := layout.gaps other (by simp [member])
  spelled other member := layout.spelled other (by simp [member])
  apart := layout.apart.tail
  last other final := layout.last other (by
    cases pieces with
    | nil => simp at final
    | cons second more => simpa using final)

/-- A source text in front of a layout is a piece, where what follows may end its lexeme. -/
theorem cons {raw text lead : List Char} {lexeme : Lexeme} {pieces : List Piece}
    (spelled : Spells raw lexeme) (ends : lexeme.Ends text) (layout : IsLayout text lead pieces) :
    IsLayout (raw ++ text) [] ({ raw, lexeme, gap := lead } :: pieces) where
  -- Each condition is asked of the new piece as well, and the only new neighbours are this piece and the first
  -- of the others.
  parts := by simp [Piece.chars, layout.parts]
  lead := by simp
  gaps := by simpa using ⟨layout.lead, layout.gaps⟩
  spelled := by simpa using ⟨spelled, layout.spelled⟩
  apart := by
    cases pieces with
    | nil => simp
    | cons second more =>
      obtain ⟨char, behind, opened, blank, delimiter⟩ := (layout.spelled second (by simp)).opens
      refine List.isChain_cons_cons.mpr ⟨⟨fun word secondWord empty => ?_, fun comment => ?_⟩,
        layout.apart⟩
      · -- A word right behind the first would go on with it.
        subst empty
        have ended := ends.word word
        simp [layout.parts, Piece.chars, opened, endsAtom, delimiter, secondWord] at ended
      · -- A comment goes up to the line feed that opens the blanks behind it.
        have ended := ends.comment comment
        cases lead with
        | nil =>
          simp only [layout.parts, List.nil_append, List.flatMap_cons, Piece.chars, opened,
            List.cons_append, List.head?_cons, reduceCtorEq, Option.some.injEq,
            false_or] at ended
          subst ended
          cases blank
        | cons first blanks => simpa [layout.parts] using ended
  last piece final comment := by
    cases pieces with
    | nil =>
      obtain rfl : { raw, lexeme, gap := lead } = piece := by simpa using final
      simpa [layout.parts, List.head?_eq_none_iff] using ends.comment comment
    | cons second more => exact layout.last piece (by simpa using final) comment

end IsLayout

/-- A text that reads to its end is laid out as the tokens read. -/
theorem Reads.layout {place final : Location} {text rest : List Char} {tokens : List Token}
    (read : Reads place text tokens final rest) (ended : rest = []) :
    ∃ lead pieces, IsLayout text lead pieces ∧ pieces.map Piece.entry = tokens.map Token.entry := by
  -- Each clause of the reading puts a blank or a piece in front.
  induction read with
  | done =>
    subst ended
    exact ⟨[], [], ⟨rfl, by simp, by simp, by simp, by simp, by simp⟩, rfl⟩
  | @blank place final char text rest tokens blank _ ih =>
    obtain ⟨lead, pieces, layout, same⟩ := ih ended
    refine ⟨char :: lead, pieces, { layout with parts := ?_, lead := ?_ }, same⟩
    · rw [layout.parts, List.cons_append]
    · simpa using ⟨blank, layout.lead⟩
  | token spelled ends _ ih =>
    -- The blanks in front of what follows become the gap of the new piece.
    obtain ⟨lead, pieces, layout, same⟩ := ih ended
    exact ⟨[], _, layout.cons spelled ends, by simp [Piece.entry, Token.entry, Token.kind, same]⟩

/-- Blanks read as no tokens. -/
theorem Reads.blanks {place : Location} {lead text : List Char}
    (blank : ∀ char ∈ lead, isBlank char = true) :
    Reads place (lead ++ text) [] (place.advanceOver lead) text := by
  -- The induction is on the blanks, which are passed one at a time.
  induction lead generalizing place with
  | nil => exact .done
  | cons char lead ih =>
    exact .blank (blank char (by simp)) (ih fun other member => blank other (by simp [member]))

/-- A layout reads as its pieces. -/
theorem IsLayout.reads {text lead : List Char} {pieces : List Piece}
    (layout : IsLayout text lead pieces) (place : Location) :
    ∃ tokens final, Reads place text tokens final [] ∧
      tokens.map Token.entry = pieces.map Piece.entry := by
  -- The induction is on the pieces, with the text and the position left open.
  induction pieces generalizing text lead place with
  | nil =>
    rw [layout.parts]
    exact ⟨[], _, .blanks layout.lead, rfl⟩
  | cons piece pieces ih =>
    -- The blanks in front, then the first source text, then a layout of the other pieces.
    obtain ⟨tokens, final, read, same⟩ :=
      ih layout.behind ((place.advanceOver lead).advanceOver piece.raw)
    have first := Reads.token (layout.spelled piece (by simp)) layout.ends read
    have parts : text = lead ++ (piece.raw ++ (piece.gap ++ pieces.flatMap Piece.chars)) := by
      simp [layout.parts, Piece.chars]
    rw [parts]
    exact ⟨_, final, (Reads.blanks layout.lead).append first,
      by simp [Piece.entry, Token.entry, Token.kind, same]⟩

end Sexpr
