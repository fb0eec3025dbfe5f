import Sexpr.Proofs.Token.Layout
import Sexpr.Proofs.Token.Locations

/-! Segments: a stretch of a text that reads as tokens falls into the parts that some of these tokens take
up, and each part reads alike when it stands alone. -/

namespace Sexpr

/-- A run of characters that reads as tokens from the first character on to the last one, with no blank
at either end. -/
structure Covers (place : Location) (body : List Char) (tokens : List Token) : Prop where
  reads : Reads place body tokens (place.advanceOver body) []
  first : ∀ token, tokens.head? = some token → token.location = place
  last : ∀ token, tokens.getLast? = some token →
    ∃ before, body = before ++ token.raw.toList ∧ token.location = place.advanceOver before

/-- A stretch of a text, behind what comes before it, that reads as tokens where it stands. -/
structure Stretch (path : Option Path) (text before run : List Char) (tokens : List Token) : Prop where
  within : before ++ run <+: text
  reads : Reads (positionAt path text before.length) run tokens
    (positionAt path text (before ++ run).length) []

/-- What tokens take up is not empty. -/
theorem Covers.ne_nil {place : Location} {body : List Char} {tokens : List Token}
    (covers : Covers place body tokens) (filled : tokens ≠ []) : body ≠ [] := by
  -- It ends with the source text of the last token, which spells a lexeme.
  have closes := List.getLast?_eq_some_getLast filled
  obtain ⟨before, rfl, -⟩ := covers.last _ closes
  have spelled := covers.reads.spelled _ (List.getLast_mem filled)
  simp [spelled.ne_nil]

namespace Reads

/-- What reads as two rows of tokens reads as the first and then as the second. -/
theorem split {place final : Location} {text rest : List Char} {first second : List Token}
    (read : Reads place text (first ++ second) final rest) :
    ∃ middle behind, Reads place text first middle behind ∧ Reads middle behind second final rest := by
  -- The induction is on the reading of both rows, with the first row left open.
  generalize same : first ++ second = tokens at read
  induction read generalizing first with
  | @done place rest =>
    obtain ⟨rfl, rfl⟩ := List.append_eq_nil_iff.mp same
    exact ⟨place, rest, .done, .done⟩
  | blank blank _ ih =>
    obtain ⟨middle, behind, front, back⟩ := ih same
    exact ⟨middle, behind, .blank blank front, back⟩
  | @token place final raw text rest lexeme tokens spelled ends more ih =>
    -- The token is the first one of the first row, unless that row is empty.
    cases first with
    | nil =>
      obtain rfl : second = _ := same
      exact ⟨place, raw ++ text, .done, .token spelled ends more⟩
    | cons token first =>
      obtain ⟨rfl, rfl⟩ := List.cons.inj same
      obtain ⟨middle, behind, front, back⟩ := ih rfl
      exact ⟨middle, behind, .token spelled ends front, back⟩

/-- The first token stands behind blanks, and the others behind its source text. -/
theorem uncons {place final : Location} {text rest : List Char} {token : Token}
    {tokens : List Token} (read : Reads place text (token :: tokens) final rest) :
    ∃ lead behind, text = lead ++ (token.raw.toList ++ behind) ∧
      token.location = place.advanceOver lead ∧ Spells token.raw.toList token.lexeme ∧
      Reads (token.location.advanceOver token.raw.toList) behind tokens final rest := by
  -- The induction is on the reading. It passes blanks up to the first token, and there it stops.
  generalize same : token :: tokens = all at read
  induction read with
  | done => cases same
  | @blank place final char text rest all _ _ ih =>
    obtain ⟨lead, behind, rfl, located, spelled, more⟩ := ih same
    exact ⟨char :: lead, behind, rfl, located, spelled, more⟩
  | @token place final raw text rest lexeme all spelled ends more =>
    obtain ⟨rfl, rfl⟩ := List.cons.inj same
    exact ⟨[], text, by simp, rfl, by simpa using spelled, by simpa using more⟩

/-- Tokens that are read take up a part of the text, between blanks that belong to none of them. -/
theorem covers {place final : Location} {text rest : List Char} {tokens : List Token}
    (read : Reads place text tokens final rest) (filled : tokens ≠ []) :
    ∃ lead body trail, text = lead ++ (body ++ (trail ++ rest)) ∧
      (∀ char ∈ lead, isBlank char = true) ∧ Covers (place.advanceOver lead) body tokens := by
  -- The induction is on the reading, and a token grows the part that the others cover by its own source text.
  induction read with
  | done => exact absurd rfl filled
  | @blank place final char text rest tokens blank _ ih =>
    obtain ⟨lead, body, trail, rfl, blanks, covers⟩ := ih filled
    exact ⟨char :: lead, body, trail, rfl, by simpa using ⟨blank, blanks⟩, covers⟩
  | @token place final raw text rest lexeme tokens spelled ends more ih =>
    cases tokens with
    | nil =>
      -- The last token ends the part, and what follows up to the rest are blanks.
      obtain ⟨trail, rfl, -, -⟩ := more.cut
      have alone := Reads.single spelled (@Lexeme.Ends.cut lexeme [] _ ends) place
      rw [List.append_nil] at alone
      refine ⟨[], raw, trail, rfl, by simp, ⟨alone, by simp, ?_⟩⟩
      intro token last
      obtain rfl := Option.some.inj last
      exact ⟨[], by simp, rfl⟩
    | cons next tokens =>
      obtain ⟨lead, body, trail, rfl, blanks, covers⟩ := ih (by simp)
      have parts : lead ++ (body ++ (trail ++ rest)) = (lead ++ body) ++ (trail ++ rest) := by simp
      rw [parts] at ends
      have whole := Reads.token spelled ends.cut ((Reads.blanks blanks).append covers.reads)
      refine ⟨[], raw ++ (lead ++ body), trail, by simp, by simp, ⟨?_, by simp, ?_⟩⟩
      · simpa using whole
      · intro token last
        obtain ⟨before, rfl, located⟩ := covers.last token (by simpa using last)
        exact ⟨raw ++ (lead ++ before), by simp, by simpa using located⟩

/-- A text that stands elsewhere reads as tokens that mean the same. -/
theorem elsewhere {place final : Location} {text rest : List Char} {tokens : List Token}
    (read : Reads place text tokens final rest) (other : Location) :
    ∃ others last, Reads other text others last rest ∧
      others.map Token.lexeme = tokens.map Token.lexeme := by
  -- The induction is on the reading, with the other position moved over the same source text.
  induction read generalizing other with
  | done => exact ⟨[], other, .done, rfl⟩
  | @blank place final char text rest tokens blank _ ih =>
    obtain ⟨others, last, read, same⟩ := ih (other.advance char)
    exact ⟨others, last, .blank blank read, same⟩
  | @token place final raw text rest lexeme tokens spelled ends _ ih =>
    obtain ⟨others, last, read, same⟩ := ih (other.advanceOver raw)
    exact ⟨_, last, .token spelled ends read, by simp [same]⟩

end Reads

namespace Stretch

variable {path : Option Path} {text before run : List Char}

/-- A stretch that reads to its end reads to the position there. -/
theorem of_reads {tokens : List Token} {final : Location} (within : before ++ run <+: text)
    (read : Reads (positionAt path text before.length) run tokens final []) :
    Stretch path text before run tokens := by
  -- A part that is read to its end moves the position to where it ends in the text.
  obtain ⟨passed, same, moved, -⟩ := read.cut
  obtain rfl : run = passed := by simpa using same
  rw [advanceOver_positionAt path within] at moved
  exact ⟨within, moved ▸ read⟩

/-- A stretch that reads as two rows of tokens falls into one for each of them. -/
theorem split {first second : List Token} (stretch : Stretch path text before run (first ++ second)) :
    ∃ front back, run = front ++ back ∧ Stretch path text before front first ∧
      Stretch path text (before ++ front) back second := by
  -- The reading of both rows splits at the row in front, and each half is read from where it stands.
  obtain ⟨middle, back, readFront, readBack⟩ := stretch.reads.split
  obtain ⟨front, rfl, rfl, alone⟩ := readFront.cut
  -- The second row is read from the position behind the first part on.
  have inFront : before ++ front <+: text := .trans (by simp) stretch.within
  have inBack : before ++ front ++ back <+: text := .trans (by simp) stretch.within
  rw [advanceOver_positionAt path inFront] at readBack
  exact ⟨front, back, rfl, .of_reads inFront alone, .of_reads inBack readBack⟩

/-- A stretch that reads as one token holds its source text, at the offset of its location. -/
theorem single {token : Token} (stretch : Stretch path text before run [token]) :
    ∃ lead trail, run = lead ++ (token.raw.toList ++ trail) ∧
      token.location.offsetIn text = some (before ++ lead).length := by
  -- The reading of one token has some blanks around it.
  obtain ⟨lead, trail, rfl, located, -, -⟩ := stretch.reads.uncons
  have inLead : before ++ lead <+: text := .trans (by simp) stretch.within
  rw [advanceOver_positionAt path inLead] at located
  exact ⟨lead, trail, rfl, located ▸ offsetIn_positionAt path inLead.length_le⟩

/-- Tokens that a stretch reads as take up a part of it. -/
theorem covers {tokens : List Token} (stretch : Stretch path text before run tokens)
    (filled : tokens ≠ []) : ∃ lead body trail, run = lead ++ (body ++ trail) ∧
      before ++ lead ++ body <+: text ∧
      Covers (positionAt path text (before ++ lead).length) body tokens := by
  -- What the reading covers is a part of the run, and so of the text.
  obtain ⟨lead, body, trail, same, -, covers⟩ := stretch.reads.covers filled
  obtain rfl : run = lead ++ (body ++ trail) := by simpa using same
  have inLead : before ++ lead <+: text := .trans (by simp) stretch.within
  rw [advanceOver_positionAt path inLead] at covers
  exact ⟨lead, body, trail, rfl, .trans (by simp) stretch.within, covers⟩

end Stretch

end Sexpr
