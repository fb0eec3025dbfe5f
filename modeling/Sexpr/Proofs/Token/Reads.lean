import Sexpr.Proofs.Token.Step

/-! Reading a text from left to right: a scan succeeds and fails exactly as the grammar says. -/

namespace Sexpr

/-- A text reads as tokens from one position to another, where the rest of the text begins. -/
inductive Reads : Location → List Char → List Token → Location → List Char → Prop
  | done {place : Location} {rest : List Char} : Reads place rest [] place rest
  | blank {place final : Location} {char : Char} {text rest : List Char} {tokens : List Token}
      (blank : isBlank char = true) (more : Reads (place.advance char) text tokens final rest) :
      Reads place (char :: text) tokens final rest
  | token {place final : Location} {raw text rest : List Char} {lexeme : Lexeme}
      {tokens : List Token} (spelled : Spells raw lexeme) (ends : lexeme.Ends text)
      (more : Reads (place.advanceOver raw) text tokens final rest) :
      Reads place (raw ++ text) ({ lexeme, raw := String.ofList raw, location := place } :: tokens)
        final rest

namespace Reads

/-- Reading goes on where it stopped. -/
theorem append {first middle last : Location} {text behind rest : List Char}
    {tokens more : List Token} (read : Reads first text tokens middle behind)
    (readMore : Reads middle behind more last rest) :
    Reads first text (tokens ++ more) last rest := by
  -- Each clause that was used before is used again in front of the rest.
  induction read with
  | done => exact readMore
  | blank blank _ ih => exact .blank blank (ih readMore)
  | token spelled ends _ ih => exact .token spelled ends (ih readMore)

/-- A source text alone reads as its token. -/
theorem single {raw rest : List Char} {lexeme : Lexeme} (spelled : Spells raw lexeme)
    (ends : lexeme.Ends rest) (place : Location) :
    Reads place (raw ++ rest) [{ lexeme, raw := String.ofList raw, location := place }]
      (place.advanceOver raw) rest :=
  -- The text is the token, and behind it nothing is read.
  .token spelled ends .done

/-- The source text of every token that is read spells its lexeme. -/
theorem spelled {place final : Location} {text rest : List Char} {tokens : List Token}
    (read : Reads place text tokens final rest) :
    ∀ token ∈ tokens, Spells token.raw.toList token.lexeme := by
  -- The induction is on the reading, which takes each token by its spelling.
  induction read with
  | done => simp
  | blank _ _ ih => exact ih
  | token spelled _ _ ih =>
    intro token member
    -- The token itself was read from its source text, and the others follow it.
    rcases List.mem_cons.mp member with rfl | later
    · simpa using spelled
    · exact ih token later

end Reads

namespace Scanner

/-- At the end of the text a scan is over. -/
theorem run_done {scanner : Scanner} (ended : scanner.rest = []) :
    scanner.run = (scanner, .ok ()) := by
  -- At the end of the text the run makes no step.
  rw [run, dif_pos ended]

/-- A scan goes on from the state that a step leaves. -/
theorem run_step {scanner next : Scanner} (ahead : scanner.rest ≠ [])
    (stepped : scanner.step = (next, .ok ())) : scanner.run = next.run := by
  -- A run opens with one step and goes on from where that leaves off.
  rw [run, dif_neg ahead]
  -- The step is known, so the branch where it fails is excluded.
  split
  · rename_i other same
    rw [stepped] at same
    cases same
    rfl
  · rename_i other error same
    rw [stepped] at same
    cases same

/-- A scan fails where a step does. -/
theorem run_failed {scanner next : Scanner} {error : Error} (ahead : scanner.rest ≠ [])
    (failed : scanner.step = (next, .error error)) : scanner.run = (next, .error error) := by
  -- A run opens with one step, and its error is the error of the run.
  rw [run, dif_neg ahead]
  -- The step is known, so the branch where it goes on is excluded.
  split
  · rename_i other same
    rw [failed] at same
    cases same
  · rename_i other otherError same
    rw [failed] at same
    cases same
    rfl

/-- A scan that has kept tokens on the way to a later position. -/
def moved (scanner : Scanner) (past : List Char) (tokens : List Token) (place : Location)
    (rest : List Char) : Scanner where
  past
  rest
  location := place
  tokens := scanner.tokens ++ tokens.toArray

@[simp] theorem moved_moved (scanner : Scanner) (past between : List Char)
    (tokens more : List Token) (place final : Location) (text rest : List Char) :
    (scanner.moved between tokens place text).moved past more final rest =
      scanner.moved past (tokens ++ more) final rest := by
  -- The second move starts from where the first has led, and only the tokens of both add up.
  simp [moved]

/-- Keeping a token moves a scan behind its source text. -/
theorem emit_eq {scanner : Scanner} {raw rest : List Char} (lexeme : Lexeme)
    (ahead : scanner.rest = raw ++ rest) :
    scanner.emit lexeme raw = (scanner.moved (raw.reverse ++ scanner.past)
      [{ lexeme, raw := String.ofList raw, location := scanner.location }]
      (scanner.location.advanceOver raw) rest, .ok ()) := by
  -- Keeping a token passes its source text, and the tokens grow by it.
  rw [emit, skip_append ahead]
  simp [moved]

/-- What reads by the grammar is scanned that way, whatever comes behind it. -/
theorem run_of_reads {place final : Location} {text rest : List Char} {tokens : List Token}
    (read : Reads place text tokens final rest) :
    ∀ scanner : Scanner, scanner.location = place → scanner.rest = text →
      ∃ past, scanner.run = (scanner.moved past tokens final rest).run := by
  -- Each clause of the grammar is one step of the scan.
  induction read with
  | done =>
    intro scanner here ahead
    subst here ahead
    exact ⟨scanner.past, by simp [moved]⟩
  | blank blank _ ih =>
    intro scanner here ahead
    subst here
    rw [run_step (by simp [ahead]) (step_blank ahead blank)]
    obtain ⟨past, same⟩ := ih (scanner.skip 1) (by simp [skip, ahead, Location.advanceOver])
      (by simp [skip, ahead])
    exact ⟨past, same⟩
  | @token place final raw text rest lexeme tokens spelled ends _ ih =>
    intro scanner here ahead
    subst here
    obtain ⟨char, behind, opened, -⟩ := spelled.opens
    have stepped := step_token ahead spelled ends
    rw [emit_eq _ ahead] at stepped
    rw [run_step (by simp [ahead, opened]) stepped]
    obtain ⟨past, same⟩ := ih (scanner.moved (raw.reverse ++ scanner.past) _
      (scanner.location.advanceOver raw) text) rfl rfl
    exact ⟨past, by rw [same, moved_moved, List.singleton_append]⟩

/-- A scan that comes to a place where it cannot go on fails there, with the tokens read before. -/
theorem run_of_refuses {scanner : Scanner} {place : Location} {rest : List Char}
    {tokens : List Token} {error : Error}
    (read : Reads scanner.location scanner.rest tokens place rest) (refused : Refuses place rest error) :
    ∃ final, scanner.run = (final, .error error) ∧ final.tokens = scanner.tokens ++ tokens.toArray := by
  -- The run gets through what can be read before it stands at what cannot.
  obtain ⟨past, same⟩ := run_of_reads read scanner rfl rfl
  obtain ⟨char, behind, opened, -⟩ := refused.opens
  -- The next step fails, and a failure keeps no token.
  obtain ⟨count, failed⟩ := @step_refused (scanner.moved past tokens place rest) error refused
  exact ⟨_, by rw [same, run_failed (by simp [moved, opened]) failed], rfl⟩

end Scanner

/-- Every text reads to its end or up to a place where it cannot be read on. -/
theorem reads_cases (place : Location) (text : List Char) :
    (∃ tokens final, Reads place text tokens final []) ∨
      ∃ tokens final rest error, Reads place text tokens final rest ∧
        Refuses final rest error := by
  -- A blank or a token in front leaves a shorter text.
  induction same : text.length using Nat.strongRecOn generalizing place text with
  | ind size ih =>
    by_cases ended : text = []
    · subst ended
      exact Or.inl ⟨[], place, .done⟩
    rcases text_cases place ended with ⟨char, rest, rfl, blank⟩ |
      ⟨raw, lexeme, rest, rfl, spelled, ends⟩ | ⟨error, refused⟩
    · -- What follows the blank reads to its end or is refused, and the blank is put in front.
      have shorter : rest.length < size := by
        rw [← same, List.length_cons]
        omega
      rcases ih rest.length shorter (place.advance char) rest rfl with
        ⟨tokens, final, read⟩ | ⟨tokens, final, left, error, read, refused⟩
      · exact Or.inl ⟨tokens, final, .blank blank read⟩
      · exact Or.inr ⟨tokens, final, left, error, .blank blank read, refused⟩
    · -- The same holds behind a token, which is not empty.
      have filled := List.length_pos_iff.mpr spelled.ne_nil
      have shorter : rest.length < size := by
        rw [← same, List.length_append]
        omega
      rcases ih rest.length shorter (place.advanceOver raw) rest rfl with
        ⟨tokens, final, read⟩ | ⟨tokens, final, left, error, read, refused⟩
      · exact Or.inl ⟨_, final, .token spelled ends read⟩
      · exact Or.inr ⟨_, final, left, error, .token spelled ends read, refused⟩
    · exact Or.inr ⟨[], place, text, error, .done, refused⟩

/-- A text that reads to its end has the tokens read. -/
theorem tokenize_of_reads {text : String} {path : Option Path} {tokens : List Token}
    {final : Location} (read : Reads { path } text.toList tokens final []) :
    tokenize text path = .ok tokens := by
  -- The run from the start keeps the tokens read and ends with the text.
  obtain ⟨past, same⟩ := Scanner.run_of_reads read (Scanner.start text path) rfl rfl
  rw [tokenize, same, Scanner.run_done rfl]
  simp [Scanner.moved, Scanner.start]

/-- A text that cannot be read on has the error found there. -/
theorem tokenize_of_refuses {text : String} {path : Option Path} {tokens : List Token}
    {place : Location} {rest : List Char} {error : Error}
    (read : Reads { path } text.toList tokens place rest) (refused : Refuses place rest error) :
    tokenize text path = .error error := by
  -- The run from the start fails at the place where the reading stops.
  obtain ⟨final, failed, -⟩ := @Scanner.run_of_refuses (Scanner.start text path) _ _ _ _ read refused
  rw [tokenize, failed]

/-- A text has tokens exactly if it reads as these to its end. -/
theorem tokenize_eq_ok_iff {text : String} {path : Option Path} {tokens : List Token} :
    tokenize text path = .ok tokens ↔ ∃ final, Reads { path } text.toList tokens final [] := by
  -- Every text reads to its end or stops at an error, so the outcome tells which.
  constructor
  · intro found
    -- A text that does not read to its end would have an error.
    rcases reads_cases { path } text.toList with
      ⟨others, final, read⟩ | ⟨others, final, rest, error, read, refused⟩
    · rw [tokenize_of_reads read, Except.ok.injEq] at found
      exact ⟨final, found ▸ read⟩
    · rw [tokenize_of_refuses read refused] at found
      cases found
  · intro reads
    obtain ⟨final, read⟩ := reads
    exact tokenize_of_reads read

/-- A text has an error exactly if it reads up to a place where it cannot be read on. -/
theorem tokenize_eq_error_iff {text : String} {path : Option Path} {error : Error} :
    tokenize text path = .error error ↔ ∃ tokens place rest,
      Reads { path } text.toList tokens place rest ∧ Refuses place rest error := by
  -- Every text reads to its end or stops at an error, so the outcome tells which.
  constructor
  · intro failed
    -- A text that reads to its end would have tokens.
    rcases reads_cases { path } text.toList with
      ⟨tokens, final, read⟩ | ⟨tokens, final, rest, other, read, refused⟩
    · rw [tokenize_of_reads read] at failed
      cases failed
    · rw [tokenize_of_refuses read refused, Except.error.injEq] at failed
      exact ⟨tokens, final, rest, read, failed ▸ refused⟩
  · intro stopped
    obtain ⟨tokens, place, rest, read, refused⟩ := stopped
    exact tokenize_of_refuses read refused

end Sexpr
