import Sexpr.Proofs.Token.Reads

/-! Calls on a scan: each reader passes characters, keeps a token, or fails having passed some, and a run is
made of such steps. -/

namespace Sexpr

/-- The faults of a reader that is called where it cannot begin. -/
def LexicalFault.isGuard : LexicalFault → Bool
  | .commentNotStarted | .stringNotStarted | .identifierNotStarted | .wrongType
  | .stackUnderflow => true
  | .stringUnclosed | .identifierBeginsWithNumber | .numberOutOfRange => false

namespace Scanner

/-- A call on a scan. -/
inductive Command where
  | readComment
  | readString
  | readIdentifier
  | readNumber
  | advance
  | consumeAtom
  | run
deriving DecidableEq, Repr

/-- What a call on a scan leaves. -/
def obey (scanner : Scanner) : Command → Outcome Unit
  | .readComment => scanner.readComment
  | .readString => scanner.readString
  | .readIdentifier => scanner.readIdentifier
  | .readNumber => scanner.readNumber
  | .advance => (scanner.advance.1, scanner.advance.2.map fun _ => ())
  | .consumeAtom => (scanner.consumeAtom, .ok ())
  | .run => scanner.run

/-- The state that calls one after another leave, whether or not they fail. -/
def drive (scanner : Scanner) : List Command → Scanner
  | [] => scanner
  | command :: commands => (scanner.obey command).1.drive commands

/-- What a run comes to within a number of iterations, if they are enough. -/
def iterate (scanner : Scanner) : Nat → Option (Outcome Unit)
  | 0 => if scanner.rest = [] then some (scanner, .ok ()) else none
  | iterations + 1 =>
    if scanner.rest = [] then some (scanner, .ok ())
    else
      match scanner.step with
      | (next, .ok ()) => next.iterate iterations
      | (next, .error error) => some (next, .error error)

/-- A scan that has gone on from another one: characters were passed, and some kept as tokens. -/
inductive Leads : Scanner → Scanner → Prop
  | stays {scanner : Scanner} : Leads scanner scanner
  | skips {scanner last : Scanner} (count : Nat) (more : Leads (scanner.skip count) last) :
      Leads scanner last
  | keeps {scanner last : Scanner} {raw rest : List Char} (lexeme : Lexeme)
      (ahead : scanner.rest = raw ++ rest) (filled : raw ≠ [])
      (more : Leads (scanner.emit lexeme raw).1 last) : Leads scanner last

/-- How a single call ends: characters are passed, a token is kept, or it fails having passed some. Where
it could not begin, it has passed none. -/
inductive Ends (scanner : Scanner) : Outcome Unit → Prop
  | skipped (count : Nat) : Ends scanner (scanner.skip count, .ok ())
  | kept {raw rest : List Char} (lexeme : Lexeme) (ahead : scanner.rest = raw ++ rest)
      (filled : raw ≠ []) : Ends scanner (scanner.emit lexeme raw)
  | failed {count : Nat} {location : Location} {fault : LexicalFault} {evidence : Evidence}
      (begun : fault.isGuard = true → count = 0) :
      Ends scanner ((scanner.skip count).fail location fault evidence)

variable {scanner : Scanner}

theorem skip_zero : scanner.skip 0 = scanner := by
  simp [skip, Location.advanceOver]

theorem index_skip (scanner : Scanner) (count : Nat) :
    (scanner.skip count).index = scanner.index + (scanner.rest.take count).length := by
  -- The offset counts what has been passed.
  simp [skip, index, Nat.add_comm]

theorem text_skip (scanner : Scanner) (count : Nat) : (scanner.skip count).text = scanner.text := by
  -- What is passed moves from the rest to the past, and the two together stay the text.
  simp [skip, text]

theorem index_add_rest (scanner : Scanner) :
    scanner.index + scanner.rest.length = scanner.text.length := by
  simp [text, index]

/-- A call that cannot begin fails on the spot. -/
theorem ends_guard (location : Location) (fault : LexicalFault) (evidence : Evidence) :
    Ends scanner (scanner.fail location fault evidence) := by
  -- A guard fails before anything is passed, so this is a failure after no character.
  have failed : Ends scanner ((scanner.skip 0).fail location fault evidence) := .failed fun _ => rfl
  rwa [skip_zero] at failed

theorem readComment_ends : Ends scanner scanner.readComment := by
  -- With a semicolon in front the line is kept, and without one the guard speaks.
  unfold readComment
  split
  next rest ahead =>
    obtain ⟨line, behind, split, parts, -⟩ := splitLine_eq rest
    rw [split]
    exact .kept _ (by rw [ahead, parts]; rfl) (List.cons_ne_nil _ _)
  next => exact ends_guard _ _ _

theorem readString_ends : Ends scanner scanner.readString := by
  -- With a quote in front the reader keeps the string or fails past the guard.
  unfold readString
  split
  next rest ahead =>
    split
    next contents behind found =>
      have parts := (splitString_eq_some.mp found).2
      exact .kept _ (by rw [ahead, parts, List.append_assoc]; rfl) (List.cons_ne_nil _ _)
    -- Without a quote to end it the whole rest is passed, and none of it kept.
    next => exact .failed nofun
  next => exact ends_guard _ _ _

theorem readNumber_ends : Ends scanner scanner.readNumber := by
  -- Where a number starts the reader gets past its guard.
  unfold readNumber
  split
  next starts =>
    -- The literal in front is passed in any case, and kept if it ends and has a finite value.
    obtain ⟨literal, rest, split, parts⟩ := Literal.splitLiteral_eq starts
    rw [split]
    dsimp only
    split
    · split
      · exact .failed nofun
      · exact .kept _ parts literal.chars_ne_nil
    · exact .failed nofun
  next => exact ends_guard _ _ _

theorem readIdentifier_ends : Ends scanner scanner.readIdentifier := by
  -- At a delimiter the guard speaks, and elsewhere a word is split off.
  unfold readIdentifier
  split
  next => exact ends_guard _ _ _
  next inside =>
    -- No delimiter stands in front, so there is a word.
    have filled := splitAtom_pos (by simpa using inside)
    obtain ⟨word, rest, split, parts, -⟩ := splitAtom_eq scanner.rest
    rw [split] at filled ⊢
    dsimp only
    split
    · exact .failed nofun
    · exact .kept _ parts (List.length_pos_iff.mp filled)

/-- Every call but a whole run ends at once. -/
theorem obey_ends {command : Command} (single : command ≠ .run) :
    Ends scanner (scanner.obey command) := by
  -- The case is the command. All but a run are one reader or one move.
  cases command with
  | readComment => exact readComment_ends
  | readString => exact readString_ends
  | readIdentifier => exact readIdentifier_ends
  | readNumber => exact readNumber_ends
  | advance =>
    simp only [obey, advance]
    cases scanner.rest with
    | nil => exact ends_guard _ _ _
    | cons char rest => exact .skipped 1
  | consumeAtom => exact .skipped _
  | run => exact absurd rfl single

/-- So does each step of a run. -/
theorem step_ends : Ends scanner scanner.step := by
  -- The cases are the branches of the step, which skips, keeps or calls one reader.
  unfold step
  split
  next =>
    have stayed : Ends scanner (scanner.skip 0, .ok ()) := .skipped 0
    rwa [skip_zero] at stayed
  next char rest ahead =>
    split
    · exact .skipped 1
    split
    · exact .kept _ ahead (List.cons_ne_nil _ _)
    split
    · exact .kept _ ahead (List.cons_ne_nil _ _)
    split
    · exact readComment_ends
    split
    · exact readString_ends
    split
    · exact readNumber_ends
    · exact readIdentifier_ends

/-- A step of a run only begins the reader that can begin, so it fails for another reason. -/
theorem step_begins {next : Scanner} {error : Error} (failed : scanner.step = (next, .error error)) :
    ∃ fault evidence, error.cause = .lexical fault evidence ∧ fault.isGuard = false := by
  -- At the end of the text the step has nothing to fail at.
  by_cases ended : scanner.rest = []
  · simp [step, ended] at failed
  -- What stands in front is skipped, is kept, or cannot be read by the reader that it selects.
  rcases text_cases scanner.location ended with ⟨char, rest, ahead, blank⟩ |
    ⟨raw, lexeme, rest, ahead, spelled, ends⟩ | ⟨other, refused⟩
  · simp [step_blank ahead blank] at failed
  · simp [step_token ahead spelled ends, emit] at failed
  · obtain ⟨count, stepped⟩ := step_refused refused
    rw [stepped] at failed
    cases failed
    generalize scanner.rest = text at refused
    cases refused <;> exact ⟨_, _, rfl, rfl⟩

theorem Leads.trans {between last : Scanner} (first : Leads scanner between)
    (second : Leads between last) : Leads scanner last := by
  -- The induction is on the first path, whose moves come before those of the second.
  induction first with
  | stays => exact second
  | skips count _ ih => exact .skips count (ih second)
  | keeps lexeme ahead filled _ ih => exact .keeps lexeme ahead filled (ih second)

/-- A call that ends at once leads on. -/
theorem Ends.leads {outcome : Outcome Unit} (ends : Ends scanner outcome) :
    Leads scanner outcome.1 := by
  -- One call is at most one move, and a failed one has passed some characters alone.
  cases ends with
  | skipped count => exact .skips count .stays
  | kept lexeme ahead filled => exact .keeps lexeme ahead filled .stays
  | failed => exact .skips _ .stays

/-- A run leads on step by step. -/
theorem run_leads (scanner : Scanner) : Leads scanner scanner.run.1 := by
  -- A run is over, goes on after a step, or fails with one.
  induction scanner using Scanner.run.induct with
  | case1 scanner ended =>
    rw [run_done ended]
    exact .stays
  | case2 scanner ahead next stepped ih =>
    have first := @step_ends scanner
    rw [stepped] at first
    rw [run_step ahead stepped]
    exact first.leads.trans ih
  | case3 scanner ahead next error failed =>
    have first := @step_ends scanner
    rw [failed] at first
    rw [run_failed ahead failed]
    exact first.leads

/-- No error of a run is that of a reader which could not begin. -/
theorem run_begins {scanner next : Scanner} {error : Error}
    (failed : scanner.run = (next, .error error)) :
    ∃ fault evidence, error.cause = .lexical fault evidence ∧ fault.isGuard = false := by
  -- The induction follows the run, and its error is the one of the step it stops at.
  induction scanner using Scanner.run.induct with
  | case1 scanner ended =>
    rw [run_done ended] at failed
    cases failed
  | case2 scanner ahead between stepped ih =>
    rw [run_step ahead stepped] at failed
    exact ih failed
  | case3 scanner ahead between other stopped =>
    rw [run_failed ahead stopped] at failed
    cases failed
    exact step_begins stopped

/-- A run takes at most one iteration for each character ahead. -/
theorem iterate_eq_run {scanner : Scanner} {iterations : Nat}
    (enough : scanner.rest.length ≤ iterations) : scanner.iterate iterations = some scanner.run := by
  -- The induction is on the number of iterations, with one character at least for each of them.
  induction iterations generalizing scanner with
  | zero =>
    have ended : scanner.rest = [] := List.length_eq_zero_iff.mp (Nat.le_zero.mp enough)
    rw [iterate, if_pos ended, run_done ended]
  | succ iterations ih =>
    unfold iterate
    split
    next ended => rw [run_done ended]
    next ahead =>
      split
      next next stepped =>
        -- A step that does not fail leaves fewer characters ahead, so the others are enough for them.
        have less := progress_step ahead _ stepped
        rw [run_step ahead stepped, ih (by omega)]
      next next error stopped => rw [run_failed ahead stopped]

end Scanner

end Sexpr
