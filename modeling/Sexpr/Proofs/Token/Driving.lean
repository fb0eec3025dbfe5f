import Sexpr.Proofs.Token.Calls
import Sexpr.Proofs.Token.Locations

/-! Driving a scan: whichever readers are called, in any order and past any failure, the scan stays at a
position of its text, behind the tokens that it has kept there one after another. -/

namespace Sexpr

/-- Tokens that stand in a text from one offset up to another, each behind the one before it. -/
inductive InRow (path : Option Path) (text : List Char) : Nat → Nat → List Token → Prop
  | nil {start stop : Nat} (within : start ≤ stop) : InRow path text start stop []
  | cons {start stop offset : Nat} {token : Token} {tokens : List Token} (behind : start ≤ offset)
      (filled : token.raw.toList ≠ []) (stands : token.StandsAt path text offset)
      (more : InRow path text (offset + token.raw.length) stop tokens) :
      InRow path text start stop (token :: tokens)

namespace InRow

variable {path : Option Path} {text : List Char} {start stop : Nat} {tokens : List Token}

theorem to_later {later : Nat} (row : InRow path text start stop tokens) (less : stop ≤ later) :
    InRow path text start later tokens := by
  -- The induction is on the row, of which only the empty one speaks about the end.
  induction row with
  | nil within => exact .nil (Nat.le_trans within less)
  | cons behind filled stands _ ih => exact .cons behind filled stands (ih less)

/-- One more token stands behind the others. -/
theorem concat {token : Token} (row : InRow path text start stop tokens)
    (filled : token.raw.toList ≠ []) (stands : token.StandsAt path text stop) :
    InRow path text start (stop + token.raw.length) (tokens ++ [token]) := by
  -- The induction is on the row, with the new token behind its end.
  induction row with
  | nil within => exact .cons within filled stands (.nil (Nat.le_refl _))
  | cons behind inner before _ ih => exact .cons behind inner before (ih stands)

end InRow

namespace Scanner

/-- A scan at a position of a text, with tokens that stand there before that position. -/
structure Sound (path : Option Path) (text : List Char) (scanner : Scanner) : Prop where
  whole : scanner.text = text
  located : scanner.location = positionAt path text scanner.index
  row : InRow path text 0 scanner.index scanner.tokens.toList

section Soundness

variable {path : Option Path} {text : List Char} {scanner : Scanner}

/-- Characters that are passed lead on from the position in front of them. -/
theorem Sound.skip (sound : Sound path text scanner) (count : Nat) :
    Sound path text (scanner.skip count) := by
  -- The text and the tokens are as before, so the position is all there is to show.
  have onwards := scanner.index_skip count
  refine ⟨(scanner.text_skip count).trans sound.whole, ?_, sound.row.to_later (by omega)⟩
  -- What is passed lies between the old position and the new one.
  have within : scanner.past.reverse ++ scanner.rest.take count <+: text := by
    rw [← sound.whole, Scanner.text]
    exact (List.prefix_append_right_inj _).mpr (List.take_prefix ..)
  have moved := advanceOver_positionAt path within
  rw [List.length_append, List.length_reverse] at moved
  rw [onwards]
  change scanner.location.advanceOver _ = _
  rw [sound.located]
  exact moved

/-- A token written ahead stands at the position of the scan. -/
theorem Sound.standsAt (sound : Sound path text scanner) {raw rest : List Char} (lexeme : Lexeme)
    (ahead : scanner.rest = raw ++ rest) :
    ({ lexeme, raw := String.ofList raw, location := scanner.location } : Token).StandsAt path text
      scanner.index where
  -- The three facts about the token are those the scanner has about its own position.
  located := sound.located
  written := by
    have behind : text.drop scanner.index = raw ++ rest := by
      rw [← sound.whole, Scanner.text, ahead, index, ← List.length_reverse, List.drop_left]
    rw [String.toList_ofList, behind]
    exact List.prefix_append raw rest
  recovered := by
    have within : scanner.index ≤ text.length := by
      rw [← sound.whole, ← index_add_rest]
      exact Nat.le_add_right _ _
    dsimp only
    rw [sound.located]
    exact offsetIn_positionAt path within

/-- A token that is kept comes behind all the others. -/
theorem Sound.emit (sound : Sound path text scanner) {raw rest : List Char} (lexeme : Lexeme)
    (ahead : scanner.rest = raw ++ rest) (filled : raw ≠ []) :
    Sound path text (scanner.emit lexeme raw).1 := by
  -- Its source text is passed as any other characters are.
  have skipped := sound.skip raw.length
  have row := sound.row.concat (by rwa [String.toList_ofList]) (sound.standsAt lexeme ahead)
  have size : (scanner.emit lexeme raw).1.index = scanner.index + (String.ofList raw).length := by
    rw [String.length_ofList]
    exact (scanner.index_skip raw.length).trans (by rw [ahead, List.take_left])
  refine ⟨skipped.whole, skipped.located, ?_⟩
  rw [size]
  simpa only [Scanner.emit, Array.toList_push] using row

theorem Leads.sound {last : Scanner} (leads : Leads scanner last) (sound : Sound path text scanner) :
    Sound path text last := by
  -- The induction is on the moves, each of which keeps the invariant.
  induction leads with
  | stays => exact sound
  | skips count _ ih => exact ih (sound.skip count)
  | keeps lexeme ahead filled _ ih => exact ih (sound.emit lexeme ahead filled)

/-- A scan that goes on keeps its text, does not go back, and drops no token. -/
theorem Leads.grows {last : Scanner} (leads : Leads scanner last) :
    last.text = scanner.text ∧ scanner.index ≤ last.index ∧
      scanner.tokens.toList <+: last.tokens.toList := by
  -- The induction is on the moves, none of which goes back or takes a token away.
  induction leads with
  | stays => exact ⟨rfl, Nat.le_refl _, List.prefix_refl _⟩
  | @skips scanner last count _ ih =>
    have onwards := Nat.le.intro (scanner.index_skip count).symm
    exact ⟨ih.1.trans (scanner.text_skip count), Nat.le_trans onwards ih.2.1, ih.2.2⟩
  | @keeps scanner last raw rest lexeme ahead filled _ ih =>
    have onwards : scanner.index ≤ (scanner.emit lexeme raw).1.index :=
      Nat.le.intro (scanner.index_skip raw.length).symm
    refine ⟨ih.1.trans (scanner.text_skip raw.length), Nat.le_trans onwards ih.2.1, ?_⟩
    exact (Array.toList_push .. ▸ List.prefix_append _ _).trans ih.2.2

/-- Every call leads on. -/
theorem obey_leads (scanner : Scanner) (command : Command) :
    Leads scanner (scanner.obey command).1 := by
  -- A run is some moves, and any other command at most one.
  by_cases single : command = .run
  · subst single
    exact run_leads scanner
  · exact (obey_ends single).leads

/-- So do any calls one after another. -/
theorem drive_leads (scanner : Scanner) (commands : List Command) :
    Leads scanner (scanner.drive commands) := by
  -- The induction is on the commands, whatever becomes of each.
  induction commands generalizing scanner with
  | nil => exact .stays
  | cons command commands ih => exact (obey_leads scanner command).trans (ih _)

theorem start_sound (text : String) (path : Option Path) :
    Sound path text.toList (start text path) where
  -- At the start nothing is passed and nothing kept.
  whole := rfl
  located := (positionAt_zero path text.toList).symm
  row := .nil (Nat.le_refl 0)

/-- A call that fails has kept no token, unless it is a run, and changed nothing if it could not begin. -/
theorem obey_failed {command : Command} {next : Scanner} {error : Error}
    (failed : scanner.obey command = (next, .error error)) :
    (command ≠ .run → next.tokens = scanner.tokens) ∧
      ∃ fault evidence, error.cause = .lexical fault evidence ∧
        (fault.isGuard = true → next = scanner) := by
  -- A failed call other than a run has kept nothing, and a guard fails before anything is passed.
  by_cases single : command = .run
  · subst single
    -- A run may have kept tokens before it failed, though it always could begin.
    obtain ⟨fault, evidence, cause, begun⟩ := run_begins failed
    exact ⟨absurd rfl, fault, evidence, cause, fun guarded => by simp [begun] at guarded⟩
  · have ends := @obey_ends scanner command single
    rw [failed] at ends
    cases ends with
    | failed begun => exact ⟨fun _ => rfl, _, _, rfl, fun guarded => by rw [begun guarded, skip_zero]⟩

/-- A step that does not fail before the end of the text has passed a character. -/
theorem index_lt_of_step {next : Scanner} (ahead : scanner.rest ≠ [])
    (stepped : scanner.step = (next, .ok ())) : scanner.index < next.index := by
  -- The step leaves fewer characters ahead.
  have shorter := progress_step ahead next stepped
  have leads : Leads scanner next := by
    have ends := @step_ends scanner
    rw [stepped] at ends
    exact ends.leads
  -- What is no longer ahead is behind, as the text stays the same.
  have size := congrArg List.length leads.grows.1
  rw [← index_add_rest, ← index_add_rest] at size
  omega

end Soundness

/-- Whatever is called on a scan of a text, in any order and past any failure, it is then at an offset of
the text, with the position of that offset, and its tokens stand in a row before it. The next call never
goes back and drops no token. If it fails it has kept none, unless it is a whole run, and if it could not
begin it has changed nothing. Each iteration of a run passes a character or fails, so that a run ends
within as many iterations as there are characters ahead. -/
theorem drive_sound (text : String) (path : Option Path) (commands : List Command) :
    let scanner := (start text path).drive commands
    scanner.text = text.toList ∧ scanner.index ≤ text.toList.length ∧
      scanner.location = positionAt path text.toList scanner.index ∧
      InRow path text.toList 0 scanner.index scanner.tokens.toList ∧
      (∀ command next result, scanner.obey command = (next, result) →
        scanner.index ≤ next.index ∧ scanner.tokens.toList <+: next.tokens.toList ∧
        ∀ error, result = .error error → (command ≠ .run → next.tokens = scanner.tokens) ∧
          ∃ fault evidence, error.cause = .lexical fault evidence ∧
            (fault.isGuard = true → next = scanner)) ∧
      (scanner.rest ≠ [] → ∀ next, scanner.step = (next, .ok ()) → scanner.index < next.index) ∧
      scanner.iterate scanner.rest.length = some scanner.run := by
  -- The scanner starts sound and every command keeps it so. What a further call does is the lemmas about one
  -- command, and how a run ends is the one about steps.
  intro scanner
  have sound : Sound path text.toList scanner :=
    (drive_leads _ commands).sound (start_sound text path)
  refine ⟨sound.whole, ?_, sound.located, sound.row, ?_, fun ahead _ => index_lt_of_step ahead,
    iterate_eq_run (Nat.le_refl _)⟩
  · rw [← sound.whole, ← index_add_rest]
    exact Nat.le_add_right _ _
  · intro command next result called
    obtain ⟨-, onwards, grown⟩ := (obey_leads scanner command).grows
    rw [called] at onwards grown
    refine ⟨onwards, grown, fun error failed => ?_⟩
    subst failed
    exact obey_failed called

end Scanner

end Sexpr
