import Sexpr.Proofs.InTurn
import Sexpr.Proofs.Node.Outermost
import Sexpr.Proofs.Node.Stripping

/-! Reading the lists at the top of a text, in terms of its tokens: what each cursor is over, and which of several
errors comes first. -/

namespace Sexpr

/-- Whether the token at a position opens a list. -/
def opensAt (tokens : List Token) (position : Nat) : Bool :=
  tokens[position]?.any fun token => token.kind == .listOpen

/-- The positions of the tokens outside of all lists that open one. -/
def listOpenings (tokens : List Token) : List Nat := (outermost tokens).filter (opensAt tokens)

/-- A token outside of all lists that is an atom and no comment. -/
structure LooseAt (tokens : List Token) (position : Nat) (token : Token) : Prop where
  outside : opens (tokens.take position) = closes (tokens.take position)
  found : tokens[position]? = some token
  atomic : token.kind.isAtom = true
  notComment : token.kind ≠ .comment

/-- The first token outside of all lists that is an atom and no comment. -/
structure FirstLoose (tokens : List Token) (position : Nat) (token : Token) : Prop extends
    LooseAt tokens position token where
  first : ∀ earlier other, LooseAt tokens earlier other → position ≤ earlier

/-- A cursor over the list that is opened at a position of a row of tokens: it is anchored at the token there, and
has the nodes of what stands in front of the matching end, without comments. -/
inductive Cursor.Over (tokens : List Token) : Nat → Cursor → Prop
  | matching {position : Nat} {cursor : Cursor} {opened closed : Token} {inner behind : List Token}
      (parts : tokens.drop position = opened :: (inner ++ closed :: behind))
      (opens : opened.kind = .listOpen) (closes : closed.kind = .listClose) (balanced : Balanced inner)
      (anchored : cursor.anchor = opened.location) (nodes : parse (dropComments inner) = .ok cursor.nodes) :
      Cursor.Over tokens position cursor

/-- The error for an atom outside of all lists. -/
def expectedList (location : Location) : Error := ⟨.structural .invalid (some "Expected list"), location⟩

/-- What stands at an outermost position where a node begins: a comment that is dropped, an atom that is refused, or
a list that a cursor is opened over. -/
inductive TopAt (tokens : List Token) (node : Node) (position : Nat) : Prop
  | comment {token : Token} (found : tokens[position]? = some token) (kind : token.kind = .comment)
      (dropped : node.withoutComments = none)
  | atom {token : Token} (found : tokens[position]? = some token) (atomic : token.kind.isAtom = true)
      (notComment : token.kind ≠ .comment) (kept : node.withoutComments = some node)
      (refused : topList node = .error (expectedList token.location))
  | list {token : Token} {kept : Node} {cursor : Cursor} (found : tokens[position]? = some token)
      (kind : token.kind = .listOpen) (left : node.withoutComments = some kept)
      (taken : topList kept = .ok cursor) (spans : cursor.Over tokens position)
      (text : cursor.text = kept.text)

variable {tokens : List Token} {text : String} {path : Option Path}

/-- A node whose tokens begin at a position is one of these. -/
theorem topAt_of_begins {node : Node} {position : Nat} (owns : node.Owns)
    (begins : node.flatten <+: tokens.drop position) : TopAt tokens node position := by
  -- The case is the node, whose first token stands at the position.
  obtain ⟨behind, parts⟩ := begins
  have found : tokens[position]? = (node.flatten ++ behind).head? := by rw [parts, List.head?_drop]
  cases owns with
  | @atom value token means =>
    have kind : token.kind = value.tokenKind := by rw [Token.kind, means, Lexeme.kind]
    by_cases comment : value.tokenKind = .comment
    · refine .comment found (kind.trans comment) ?_
      rw [Node.withoutComments_atom, if_pos comment]
    · refine .atom found ?_ (kind ▸ comment) ?_ ?_
      · rw [kind]
        cases value <;> rfl
      · rw [Node.withoutComments_atom, if_neg comment]
      · cases value <;> rfl
  | @list children opened closed opens closes all =>
    have kind : opened.kind = .listOpen := by rw [Token.kind, opens, Lexeme.kind]
    refine .list found kind (by rw [Node.withoutComments]) rfl ?_ rfl
    -- Between its ends stand the tokens of the children, which are parsed as these.
    refine @Cursor.Over.matching _ _ _ opened closed _ behind ?_ kind ?_ (balanced_flattenAll all) rfl ?_
    · rw [← parts]
      simp [Node.flatten]
    · rw [Token.kind, closes, Lexeme.kind]
    · rw [parse_dropComments, parse_flattenAll all]
      rfl

/-- A comment is no loose atom, and neither is a token that opens a list. -/
theorem not_looseAt {position : Nat} {token : Token} (found : tokens[position]? = some token)
    (kind : token.kind = .comment ∨ token.kind = .listOpen) : ∀ other, ¬ LooseAt tokens position other := by
  -- A loose atom is neither of these.
  intro other loose
  obtain rfl := Option.some.inj (found.symm.trans loose.found)
  rcases kind with comment | opened
  · exact loose.notComment comment
  · have atomic := loose.atomic
    rw [opened] at atomic
    cases atomic

/-- The token at a position opens a list if it is of that class, and otherwise not. -/
theorem opensAt_iff {position : Nat} {token : Token} (found : tokens[position]? = some token) :
    opensAt tokens position = true ↔ token.kind = .listOpen := by
  rw [opensAt, found, Option.any_some, beq_iff_eq]

/-- Cursors over the nodes at the top of a text, whose tokens begin at positions where nothing is a loose atom: one
for each position at which a list is opened, and with the texts of the nodes. -/
structure Opened (tokens : List Token) (positions : List Nat) (nodes : List Node) (cursors : List Cursor) :
    Prop where
  tight : ∀ position ∈ positions, ∀ token, ¬ LooseAt tokens position token
  taken : nodes.mapM topList = .ok cursors
  spans : List.Forall₂ (Cursor.Over tokens) (positions.filter (opensAt tokens)) cursors
  texts : cursors.map Cursor.text = nodes.map Node.text

/-- Opening cursors over nodes at the top fails at the first position of a loose atom. -/
structure Blocked (tokens : List Token) (positions : List Nat) (nodes : List Node) (position : Nat)
    (token : Token) : Prop where
  first : ∃ before behind, positions = before ++ position :: behind ∧
    ∀ earlier ∈ before, ∀ other, ¬ LooseAt tokens earlier other
  loose : LooseAt tokens position token
  failed : nodes.mapM topList = .error (expectedList token.location)

/-- Where nothing is a loose atom the first one is behind. -/
theorem Blocked.later {positions : List Nat} {nodes others : List Node} {position earlier : Nat} {token : Token}
    (blocked : Blocked tokens positions nodes position token)
    (tight : ∀ other, ¬ LooseAt tokens earlier other)
    (failed : others.mapM topList = .error (expectedList token.location)) :
    Blocked tokens (earlier :: positions) others position token := by
  -- Nothing at the earlier position is a loose atom, so the first one is still the first.
  obtain ⟨⟨before, behind, rfl, none⟩, loose, -⟩ := blocked
  exact ⟨⟨earlier :: before, behind, rfl, List.forall_mem_cons.mpr ⟨tight, none⟩⟩, loose, failed⟩

/-- All that opening cursors over the nodes at the top can do: it takes the lists in order if nothing else is
there but comments, and otherwise it fails at the first other token. -/
theorem topLists_cases {forest : List Node} {positions : List Nat}
    (outside : ∀ position ∈ positions, opens (tokens.take position) = closes (tokens.take position))
    (each : List.Forall₂ (TopAt tokens) forest positions) :
    (∃ cursors, Opened tokens positions (stripComments forest) cursors) ∨
      ∃ position token, Blocked tokens positions (stripComments forest) position token := by
  -- The induction is on the nodes and their positions together, and the case is the first node.
  induction each with
  | nil => exact Or.inl ⟨[], by simp, rfl, .nil, rfl⟩
  | @cons node position forest positions top _ ih =>
    obtain ⟨here, more⟩ := List.forall_mem_cons.mp outside
    cases top with
    | @atom token found atomic notComment kept refused =>
      -- The others are not looked at any more.
      refine Or.inr ⟨position, token, ⟨[], positions, rfl, by simp⟩, ⟨here, found, atomic, notComment⟩, ?_⟩
      rw [stripComments, kept, mapM_cons_eq, refused]
      rfl
    | comment found kind dropped =>
      have tight := not_looseAt found (Or.inl kind)
      have shut : ¬ opensAt tokens position = true := by
        rw [opensAt_iff found, kind]
        decide
      rw [stripComments, dropped]
      -- Neither the node nor its position adds anything to what is behind.
      rcases ih more with ⟨cursors, opened⟩ | ⟨later, token, blocked⟩
      · refine Or.inl ⟨cursors, List.forall_mem_cons.mpr ⟨tight, opened.tight⟩, opened.taken, ?_, opened.texts⟩
        rw [List.filter_cons_of_neg shut]
        exact opened.spans
      · exact Or.inr ⟨later, token, blocked.later tight blocked.failed⟩
    | @list token kept cursor found kind left taken spans text =>
      have tight := not_looseAt found (Or.inr kind)
      rw [stripComments, left]
      -- The cursor comes in front of those behind it, which are opened next.
      rcases ih more with ⟨cursors, opened⟩ | ⟨later, token, blocked⟩
      · refine Or.inl ⟨cursor :: cursors, List.forall_mem_cons.mpr ⟨tight, opened.tight⟩, ?_, ?_, ?_⟩
        · rw [mapM_cons_eq, taken, opened.taken]
          rfl
        · rw [List.filter_cons_of_pos ((opensAt_iff found).mpr kind)]
          exact .cons spans opened.spans
        · rw [List.map_cons, List.map_cons, text, opened.texts]
      · refine Or.inr ⟨later, token, blocked.later tight ?_⟩
        rw [mapM_cons_eq, taken, blocked.failed]
        rfl

/-- A loose atom stands at an outermost position. -/
theorem LooseAt.mem_outermost {position : Nat} {token : Token} (loose : LooseAt tokens position token) :
    position ∈ outermost tokens := by
  -- A loose atom stands outside all lists.
  obtain ⟨inside, -⟩ := List.getElem?_eq_some_iff.mp loose.found
  exact Sexpr.mem_outermost.mpr ⟨inside, loose.outside⟩

/-- Only one token is the first loose atom. -/
theorem FirstLoose.unique {position other : Nat} {token found : Token}
    (first : FirstLoose tokens position token) (also : FirstLoose tokens other found) : token = found := by
  -- Each of the two is at most as far in as the other.
  obtain rfl := Nat.le_antisymm (first.first _ _ also.toLooseAt) (also.first _ _ first.toLooseAt)
  exact Option.some.inj (first.found.symm.trans also.found)

/-- Cursors are opened up to the first loose atom of all. -/
theorem Blocked.firstLoose {nodes : List Node} {position : Nat} {token : Token}
    (blocked : Blocked tokens (outermost tokens) nodes position token) : FirstLoose tokens position token := by
  -- All loose atoms stand at outermost positions, and these are in order.
  obtain ⟨⟨before, behind, parts, none⟩, loose, -⟩ := blocked
  refine ⟨loose, fun earlier other also => ?_⟩
  -- An earlier one would stand at an outermost position in front of this one.
  have member := also.mem_outermost
  have ordered := pairwise_outermost tokens
  rw [parts] at member ordered
  rcases List.mem_append.mp member with inFront | more
  · exact absurd also (none earlier inFront other)
  · rcases List.mem_cons.mp more with rfl | later
    · exact Nat.le_refl _
    · have pairs := List.pairwise_cons.mp (List.pairwise_append.mp ordered).2.1
      exact Nat.le_of_lt (pairs.1 earlier later)

/-- A text without tokens has no lists, for the same error. -/
theorem parseLists_of_unscanned {error : Error} (failed : tokenize text path = .error error) :
    parseLists text path = .error error := by
  simp only [parseLists, parseText, failed, Bind.bind, Except.bind]

/-- The lists at the top of a text that has tokens are those of the forest that these are parsed as, or there are
none for the error of parsing them. -/
theorem parseLists_of_tokenize (scanned : tokenize text path = .ok tokens) :
    parseLists text path = (parse tokens).bind fun forest => (stripComments forest).mapM topList := by
  -- The tokens are given, so what is left is parsing them without comments.
  rw [parseLists, parseText_of_tokenize scanned, parse_dropComments]
  cases parse tokens <;> rfl

/-- A text with tokens that are not balanced has no lists, as its tokens are not parsed. -/
theorem parseLists_of_unbalanced (scanned : tokenize text path = .ok tokens) (unbalanced : ¬ Balanced tokens) :
    ∃ error, parse tokens = .error error ∧ parseLists text path = .error error ∧ ∃ location,
      error = ⟨.structural .unstartedList, location⟩ ∨ error = ⟨.structural .unclosedList, location⟩ := by
  -- Parsing balks at a list without a start or at one without an end.
  rw [parseLists_of_tokenize scanned]
  rcases parse_cases tokens with ⟨_, closed, -, failed⟩ | ⟨-, _, opened, _, -, failed⟩ | ⟨balanced, -⟩
  · exact ⟨_, failed, by rw [failed]; rfl, _, Or.inl rfl⟩
  · exact ⟨_, failed, by rw [failed]; rfl, _, Or.inr rfl⟩
  · exact absurd balanced unbalanced

/-- With balanced tokens a text is read and cursors are opened over its nodes, or the first loose atom is
refused. -/
theorem parseLists_of_balanced (scanned : tokenize text path = .ok tokens) (balanced : Balanced tokens) :
    (∃ nodes cursors, parseText text path = .ok nodes ∧ parseLists text path = .ok cursors ∧
      Opened tokens (outermost tokens) nodes cursors) ∨
    ∃ position token, FirstLoose tokens position token ∧
      parseLists text path = .error (expectedList token.location) := by
  -- Balanced tokens are parsed, and their nodes open or one of them blocks.
  rw [parseLists_of_tokenize scanned]
  obtain ⟨forest, parsed⟩ := (parse_ok_iff tokens).mpr balanced
  obtain ⟨rfl, owns⟩ := flattenAll_of_parse parsed
  have read : parseText text path = .ok (stripComments forest) := by
    rw [parseText_of_tokenize scanned, parse_dropComments, parsed]
    rfl
  -- The tokens of each node begin at the outermost position that goes with it.
  have begin := (List.forall₂_and_left forest _).mpr ⟨owns, forall₂_outermost owns⟩
  have each := begin.imp fun node position both => topAt_of_begins both.1 both.2
  rw [parsed]
  rcases topLists_cases (fun _ member => (mem_outermost.mp member).2) each with
    ⟨cursors, opened⟩ | ⟨position, token, blocked⟩
  · exact Or.inl ⟨_, cursors, read, opened.taken, opened⟩
  · exact Or.inr ⟨position, token, blocked.firstLoose, blocked.failed⟩

/-- Lists are taken only from a text with balanced tokens, and as the cursors over its nodes. -/
theorem exists_opened {cursors : List Cursor} (taken : parseLists text path = .ok cursors) :
    ∃ tokens nodes, tokenize text path = .ok tokens ∧ Balanced tokens ∧ parseText text path = .ok nodes ∧
      Opened tokens (outermost tokens) nodes cursors := by
  -- Two of the stages could have failed, and neither has.
  cases scanned : tokenize text path with
  | error error =>
    rw [parseLists_of_unscanned scanned] at taken
    cases taken
  | ok tokens =>
    by_cases balanced : Balanced tokens
    · rcases parseLists_of_balanced scanned balanced with ⟨nodes, others, read, same, opened⟩ |
        ⟨position, token, -, failed⟩
      · obtain rfl := Except.ok.inj (same.symm.trans taken)
        exact ⟨tokens, nodes, rfl, balanced, read, opened⟩
      · rw [failed] at taken
        cases taken
    · obtain ⟨error, -, failed, -⟩ := parseLists_of_unbalanced scanned balanced
      rw [failed] at taken
      cases taken

/-- The lists at the top of a text in terms of its tokens. They are read exactly if the text has tokens, these are
balanced, and outside of all lists there are no atoms but comments. There is a cursor over each list that is opened
outside of all others, in order, with the texts of the nodes that are read. With balanced tokens reading fails
exactly at the first atom outside of all lists that is no comment. With others it fails as nesting them does, and
without tokens as finding them does, whatever atoms stand outside of the lists. -/
theorem parseLists_tokens (text : String) (path : Option Path) :
    ((∃ cursors, parseLists text path = .ok cursors) ↔ ∃ tokens, tokenize text path = .ok tokens ∧
      Balanced tokens ∧ ∀ position token, ¬ LooseAt tokens position token) ∧
    (∀ cursors, parseLists text path = .ok cursors → ∃ tokens nodes, tokenize text path = .ok tokens ∧
      parseText text path = .ok nodes ∧ List.Forall₂ (Cursor.Over tokens) (listOpenings tokens) cursors ∧
      cursors.map Cursor.text = nodes.map Node.text) ∧
    (∀ tokens, tokenize text path = .ok tokens → Balanced tokens → ∀ error,
      parseLists text path = .error error ↔
        ∃ position token, FirstLoose tokens position token ∧ error = expectedList token.location) ∧
    (∀ tokens, tokenize text path = .ok tokens → ¬ Balanced tokens → ∃ error, parse tokens = .error error ∧
      parseLists text path = .error error ∧ ∃ location,
        error = ⟨.structural .unstartedList, location⟩ ∨ error = ⟨.structural .unclosedList, location⟩) ∧
    ∀ error, tokenize text path = .error error → parseLists text path = .error error := by
  -- The text has tokens or not, these are balanced or not, and one of them is a loose atom or none is.
  refine ⟨⟨?_, ?_⟩, ?_, ?_, fun tokens => parseLists_of_unbalanced, fun error => parseLists_of_unscanned⟩
  · rintro ⟨cursors, taken⟩
    obtain ⟨tokens, nodes, scanned, balanced, -, opened⟩ := exists_opened taken
    exact ⟨tokens, scanned, balanced, fun position token loose =>
      opened.tight position loose.mem_outermost token loose⟩
  · rintro ⟨tokens, scanned, balanced, tight⟩
    rcases parseLists_of_balanced scanned balanced with ⟨nodes, cursors, -, taken, -⟩ |
      ⟨position, token, first, -⟩
    · exact ⟨cursors, taken⟩
    · exact absurd first.toLooseAt (tight position token)
  · intro cursors taken
    obtain ⟨tokens, nodes, scanned, -, read, opened⟩ := exists_opened taken
    exact ⟨tokens, nodes, scanned, read, opened.spans, opened.texts⟩
  · intro tokens scanned balanced error
    rcases parseLists_of_balanced scanned balanced with ⟨nodes, cursors, -, taken, opened⟩ |
      ⟨position, token, first, failed⟩
    · -- Cursors are opened only where nothing is a loose atom.
      rw [taken]
      constructor
      · intro failed
        cases failed
      · rintro ⟨position, token, first, -⟩
        exact absurd first.toLooseAt (opened.tight position first.mem_outermost token)
    · rw [failed, Except.error.injEq]
      constructor
      · rintro rfl
        exact ⟨position, token, first, rfl⟩
      · rintro ⟨other, found, also, rfl⟩
        rw [first.unique also]

/-- A list that is never closed is blamed although a loose atom stands in front of it. -/
example : parseLists ";\n\"\" (" = .error ⟨.structural .unclosedList, { line := 1, column := 3 }⟩ := by cbv

end Sexpr
