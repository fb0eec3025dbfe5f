import Sexpr.Proofs.Node.Relocation
import Sexpr.Proofs.RoundTrip

/-! Joining texts: behind a line feed a text reads as if it stood alone, only further down. -/

namespace Sexpr

/-- An atom that may end here may also end before a line feed. -/
theorem endsAtom_lineFeed {rest : List Char} (ends : endsAtom rest.head? = true) (more : List Char) :
    endsAtom (rest ++ '\n' :: more).head? = true := by
  -- The line feed matters only if nothing was there before it.
  cases rest with
  | nil => rfl
  | cons char rest => exact ends

/-- A lexeme that may end here may also end before a line feed. -/
theorem Lexeme.Ends.lineFeed {lexeme : Lexeme} {rest : List Char} (ends : lexeme.Ends rest)
    (more : List Char) : lexeme.Ends (rest ++ '\n' :: more) := by
  -- The line feed ends a word, as the end of the text did.
  refine ⟨fun word => endsAtom_lineFeed (ends.word word) more, fun comment => ?_⟩
  -- A comment goes up to a line feed, which may be the one behind the text.
  cases rest with
  | nil => exact Or.inr rfl
  | cons char rest => exact ends.comment comment

/-- A text that a line feed follows reads as it does without. -/
theorem Reads.lineFeed {place final : Location} {text rest : List Char} {tokens : List Token}
    (read : Reads place text tokens final rest) (more : List Char) :
    Reads place (text ++ '\n' :: more) tokens final (rest ++ '\n' :: more) := by
  -- The induction is on the reading, whose tokens end before the line feed.
  induction read with
  | done => exact .done
  | blank blank _ ih => exact .blank blank ih
  | token spelled ends _ ih =>
    rw [List.append_assoc]
    exact .token spelled (ends.lineFeed more) ih

/-- What cannot be read cannot be read with a line feed behind it either, unless it is a string that may
go on there. -/
theorem Refuses.lineFeed {place : Location} {text : List Char} {error : Error}
    (refused : Refuses place text error)
    (closed : ∀ evidence, error.cause ≠ .lexical .stringUnclosed evidence) (more : List Char) :
    Refuses place (text ++ '\n' :: more) error := by
  -- The case is the reason, and an unclosed string is excluded.
  cases refused with
  | unclosed endless => exact absurd rfl (closed _)
  | misread inside ends starts noLiteral =>
    rw [List.append_assoc]
    exact .misread inside (endsAtom_lineFeed ends more) starts noLiteral
  | excessive literal ends excessive =>
    rw [List.append_assoc]
    exact .excessive literal (endsAtom_lineFeed ends more) excessive

/-- The characters of two texts that a line feed joins. -/
theorem toList_joined (first second : String) :
    (first ++ "\n" ++ second).toList = first.toList ++ '\n' :: second.toList := by
  simp

/-- How far down the second of two texts starts that a line feed joins. -/
def linesBefore (first : String) : Nat := first.toList.count '\n' + 1

/-- The tokens of two texts that a line feed joins are those of the first one and then those of the
second one, further down; so is the error of the second one. -/
theorem tokenize_joined {first : String} {path : Option Path} {tokens : List Token}
    (scanned : tokenize first path = .ok tokens) (second : String) :
    tokenize (first ++ "\n" ++ second) path =
      ((tokenize second path).map fun more =>
          tokens ++ more.map (Token.relocate (Location.down (linesBefore first)))).mapError
        (Error.relocate (Location.down (linesBefore first))) := by
  -- The first text is read up to the line feed, and from there the second one is read or refused.
  obtain ⟨final, read⟩ := tokenize_eq_ok_iff.mp scanned
  -- The line feed is a blank, behind which the second text starts at the beginning of a line.
  have moved : final.advance '\n' = Location.down (linesBefore first) { path } := by
    obtain ⟨run, same, rfl, -⟩ := read.cut
    rw [List.append_nil] at same
    rw [← same, Location.advance_lineFeed, linesBefore]
  have front := read.lineFeed second.toList
  rw [List.nil_append, ← toList_joined] at front
  have uniform := Location.uniform_down (linesBefore first)
  cases result : tokenize second path with
  | ok more =>
    obtain ⟨last, readMore⟩ := tokenize_eq_ok_iff.mp result
    have behind := readMore.relocate uniform
    rw [← moved] at behind
    exact tokenize_of_reads (front.append (.blank rfl behind))
  | error error =>
    obtain ⟨more, place, rest, readMore, refused⟩ := tokenize_eq_error_iff.mp result
    have behind := readMore.relocate uniform
    rw [← moved] at behind
    exact tokenize_of_refuses (front.append (.blank rfl behind)) (refused.relocate uniform)

/-- Open lists with more nodes before the outermost of them. -/
def putBefore (earlier : List Node) : List OpenList → List OpenList
  | [] => []
  | [opened] => [{ opened with before := opened.before ++ earlier }]
  | opened :: second :: enclosing => opened :: putBefore earlier (second :: enclosing)

namespace Growth

/-- A growing forest with more nodes before all others. These are listed newest first, as its own are. -/
def behind (earlier : List Node) (growth : Growth) : Growth :=
  match growth.enclosing with
  | [] => { growth with nodes := growth.nodes ++ earlier }
  | opened :: enclosing => { growth with enclosing := putBefore earlier (opened :: enclosing) }

/-- Nodes before all others make no difference to how a token is taken in. -/
theorem push_behind (earlier : List Node) (growth : Growth) (token : Token) :
    (growth.behind earlier).push token = (growth.push token).map (behind earlier) := by
  -- The case is the token, and how many lists are open.
  obtain ⟨nodes, enclosing⟩ := growth
  cases means : token.lexeme with
  | listOpen =>
    -- The nodes in front are set aside with those of the innermost list.
    cases enclosing <;> simp [push, behind, putBefore, means, Except.map]
  | atom value => cases enclosing <;> simp [push, behind, means, Except.map]
  | listClose =>
    rcases enclosing with _ | ⟨opened, _ | ⟨second, enclosing⟩⟩
    · simp [push, behind, means, Except.map]
    · simp [push, behind, putBefore, means, Except.map]
    · simp [push, behind, putBefore, means, Except.map]

/-- Nodes before all others make no difference to how a row of tokens is taken in. -/
theorem foldlM_behind (earlier : List Node) (tokens : List Token) (growth : Growth) :
    tokens.foldlM push (growth.behind earlier) = (tokens.foldlM push growth).map (behind earlier) := by
  -- The induction is on the tokens, with the growth left open.
  induction tokens generalizing growth with
  | nil => rfl
  | cons token tokens ih =>
    rw [List.foldlM_cons, List.foldlM_cons, push_behind]
    cases growth.push token with
    | error error => rfl
    | ok next => exact ih next

/-- Nodes before all others make no difference to how a forest is finished. -/
theorem finish_behind (earlier : List Node) (growth : Growth) :
    (growth.behind earlier).finish = growth.finish.map (earlier.reverse ++ ·) := by
  -- The innermost list that is open is the same, whatever stands before the outermost.
  obtain ⟨nodes, enclosing⟩ := growth
  match enclosing with
  | [] => simp [finish, behind, Except.map]
  | [opened] => simp [finish, behind, putBefore, Except.map]
  | opened :: second :: enclosing => simp [finish, behind, putBefore, Except.map]

end Growth

/-- Behind the tokens of a forest others are parsed as if they stood alone. -/
theorem parse_append {tokens : List Token} {forest : List Node} (parsed : parse tokens = .ok forest)
    (others : List Token) : parse (tokens ++ others) = (parse others).map (forest ++ ·) := by
  -- The fold goes over the first tokens and then over the others.
  obtain ⟨final, grown, outermost, rfl⟩ := parse_eq_ok_iff.mp parsed
  -- When the first tokens have been taken in no list is open, as if their nodes stood before a start.
  have start : final = Growth.behind final.nodes {} := by
    obtain ⟨nodes, enclosing⟩ := final
    obtain rfl : enclosing = [] := outermost
    rfl
  have grownMore := Growth.foldlM_behind final.nodes others {}
  rw [← start] at grownMore
  simp only [parse, List.foldlM_append, grown, Bind.bind, Except.bind, grownMore]
  cases others.foldlM Growth.push {} with
  | error error => rfl
  | ok last => exact last.finish_behind final.nodes

/-- Two forests in a row are stripped one after the other. -/
theorem stripComments_append (nodes others : List Node) :
    stripComments (nodes ++ others) = stripComments nodes ++ stripComments others := by
  simp only [stripComments_eq_filterMap, List.filterMap_append]

/-- Joining two texts by a line feed joins what they read as. If the first one can be read, then the
forest of the second one comes behind that of the first one, with all its positions further down, and so
does its error if it has one. A word at which reading the first one fails is where reading both fails,
with the same error. -/
theorem parseText_joined (first second : String) (path : Option Path) :
    (∀ ignoreComments nodes, parseText first path ignoreComments = .ok nodes →
      parseText (first ++ "\n" ++ second) path ignoreComments =
        ((parseText second path ignoreComments).map fun more =>
            nodes ++ more.map (Node.relocate (Location.down (linesBefore first)))).mapError
          (Error.relocate (Location.down (linesBefore first)))) ∧
    ∀ error, tokenize first path = .error error →
      (∀ evidence, error.cause ≠ .lexical .stringUnclosed evidence) →
      tokenize (first ++ "\n" ++ second) path = .error error := by
  -- The tokens of the join are those of both texts, and so is the forest. An error that is not about a string
  -- stands before the line feed.
  constructor
  · intro ignoreComments nodes read
    obtain ⟨forest, final, owns, reads, rfl⟩ := parseText_eq_ok_iff.mp read
    have joined := tokenize_joined (tokenize_eq_ok_iff.mpr ⟨final, reads⟩) second
    have parsed := parse_append (parse_flattenAll owns)
    cases scanned : tokenize second path with
    | error error =>
      -- The second text has no tokens, so neither have both together.
      rw [scanned] at joined
      simp only [parseText, scanned, joined, Except.map, Except.mapError, Bind.bind, Except.bind]
    | ok more =>
      -- The tokens of the second text are parsed behind the first forest, as if they stood alone.
      rw [scanned] at joined
      simp only [parseText, scanned, joined, Except.map, Except.mapError, Bind.bind, Except.bind,
        parsed, parse_relocate]
      cases parse more with
      | error error => rfl
      | ok others =>
        cases ignoreComments with
        | false => rfl
        | true =>
          -- Stripping both together strips the first forest and the second one, wherever it stands.
          have stripped := stripComments_append forest
            (others.map (Node.relocate (Location.down (linesBefore first))))
          rw [stripComments_relocate] at stripped
          exact congrArg Except.ok stripped
  · intro error failed closed
    -- The word that could not be read ends before the line feed, as it ended with the text.
    obtain ⟨tokens, place, rest, read, refused⟩ := tokenize_eq_error_iff.mp failed
    have readOn := read.lineFeed second.toList
    rw [← toList_joined] at readOn
    exact tokenize_of_refuses readOn (refused.lineFeed closed second.toList)

/-- A comment that ends with a carriage return reads alike with a line feed behind it, and a list that is
never closed is blamed one line further down; a word that is no number is blamed whatever follows. -/
theorem parseText_joined_return : ∃ nodes unclosed misread,
    parseText ";a\r" none false = .ok nodes ∧ parseText "(" none false = .error unclosed ∧
      parseText (";a\r" ++ "\n" ++ "(") none false =
        .error (unclosed.relocate (Location.down (linesBefore ";a\r"))) ∧
      tokenize "1x" = .error misread ∧ tokenize ("1x" ++ "\n" ++ "\"") = .error misread := by
  -- The comment of the first text ends with a carriage return, and the second text opens a list.
  let note : Token := { lexeme := .atom (.comment "a"), raw := ";a\r" }
  have read : parseText ";a\r" none false = .ok [.atom (.comment "a") [note]] := by cbv
  have unclosed : parseText "(" none false = .error ⟨.structural .unclosedList, {}⟩ := by cbv
  let misread : Error := ⟨.lexical .identifierBeginsWithNumber { got := some (.text "1x") }, {}⟩
  have failed : (Scanner.start "1x").step = ((Scanner.start "1x").skip 2, .error misread) := rfl
  have stopped : tokenize "1x" = .error misread := by
    rw [tokenize, Scanner.run_failed (List.cons_ne_nil _ _) failed]
  have joined := (parseText_joined ";a\r" "(" none).1 false _ read
  rw [unclosed] at joined
  have stays := (parseText_joined "1x" "\"" none).2 _ stopped (by simp [misread])
  exact ⟨_, _, _, read, unclosed, joined, stopped, stays⟩

end Sexpr
