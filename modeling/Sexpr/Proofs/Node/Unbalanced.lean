import Sexpr.Proofs.Node.Stacks

/-! Where parsing fails: at the first list end that has no list to close, or at the innermost list that is never
closed. -/

namespace Sexpr

/-- The shortest beginning of a row of tokens that closes more lists than it opens, up to its last token. -/
structure FirstExcess (tokens before : List Token) (closed : Token) : Prop where
  inside : before ++ [closed] <+: tokens
  exceeds : opens (before ++ [closed]) < closes (before ++ [closed])
  shortest : ∀ other, other <+: tokens → opens other < closes other →
    (before ++ [closed]).length ≤ other.length

/-- The tokens behind a list that was opened hold its end: what stands before that end is balanced. -/
def HasEnd (behind : List Token) : Prop :=
  ∃ inner closed rest, behind = inner ++ closed :: rest ∧ closed.kind = .listClose ∧ Balanced inner

/-- The last token of a row that opens a list without an end of its own. -/
structure LastUnmatched (tokens before : List Token) (opened : Token) (behind : List Token) : Prop where
  parts : tokens = before ++ opened :: behind
  kind : opened.kind = .listOpen
  endless : ¬ HasEnd behind
  last : ∀ between other rest, behind = between ++ other :: rest → other.kind = .listOpen → HasEnd rest

/-- A row of tokens of which no beginning closes more lists than it opens. -/
def NoExcess (tokens : List Token) : Prop := ∀ before, before <+: tokens → closes before ≤ opens before

@[simp] theorem opens_append (tokens others : List Token) :
    opens (tokens ++ others) = opens tokens + opens others :=
  List.countP_append

@[simp] theorem closes_append (tokens others : List Token) :
    closes (tokens ++ others) = closes tokens + closes others :=
  List.countP_append

/-- One token opens a list or closes one or does neither. -/
theorem opens_closes_le (token : Token) : opens [token] + closes [token] ≤ 1 := by
  -- The case is the token, which opens a list, closes one or does neither.
  have counts := opens_closes_single token
  cases means : token.lexeme with
  | listOpen =>
    have := counts.1 means
    omega
  | listClose =>
    have := counts.2.1 means
    omega
  | atom value =>
    have := counts.2.2 value means
    omega

/-- A token that opens a list counts as such. -/
theorem opens_of_kind {token : Token} (kind : token.kind = .listOpen) : opens [token] = 1 := by
  simp [opens, kind]

/-- A token that counts as closing a list is the end of one. -/
theorem kind_of_closes {token : Token} (counted : closes [token] ≠ 0) : token.kind = .listClose := by
  simpa [closes] using counted

namespace FirstExcess

variable {tokens before : List Token} {closed : Token}

/-- What stands before the first end without a list is balanced. -/
theorem balanced (first : FirstExcess tokens before closed) : Balanced before := by
  -- The excess comes with the last token, so before it the counts are even.
  have exceeds := first.exceeds
  rw [opens_append, closes_append] at exceeds
  have atMost := opens_closes_le closed
  -- Any shorter beginning closes at most as many lists as it opens.
  have below : NoExcess before := by
    intro other inside
    refine Nat.le_of_not_lt fun more => ?_
    have least := first.shortest other
      (inside.trans ((List.prefix_append before [closed]).trans first.inside)) more
    have size := inside.length_le
    rw [List.length_append, List.length_singleton] at least
    omega
  have whole := below before List.prefix_rfl
  exact ⟨by omega, below⟩

/-- The first end without a list is the end of a list. -/
theorem kind (first : FirstExcess tokens before closed) : closed.kind = .listClose := by
  -- The excess comes with this token, so it is counted.
  have exceeds := first.exceeds
  have even := first.balanced.even
  rw [opens_append, closes_append] at exceeds
  exact kind_of_closes (by omega)

/-- There is only one such place. -/
theorem unique (first : FirstExcess tokens before closed) {before' : List Token} {closed' : Token}
    (other : FirstExcess tokens before' closed') : closed = closed' := by
  -- Both beginnings are shortest, so they are as long as each other and therefore the same.
  have size := Nat.le_antisymm (first.shortest _ other.inside other.exceeds)
    (other.shortest _ first.inside first.exceeds)
  have same := (List.prefix_of_prefix_length_le first.inside other.inside (Nat.le_of_eq size)).eq_of_length size
  exact (List.append_singleton_inj.mp same).2

end FirstExcess

namespace Growth

/-- A row of tokens is refused at a token of its own, behind others that have been taken in. -/
theorem foldlM_error {growth : Growth} {tokens : List Token} {error : Error}
    (failed : tokens.foldlM push growth = .error error) :
    ∃ before token rest middle, tokens = before ++ token :: rest ∧
      before.foldlM push growth = .ok middle ∧ middle.push token = .error error := by
  -- The induction is on the tokens, with the growth left open.
  induction tokens generalizing growth with
  | nil => cases failed
  | cons token tokens ih =>
    cases pushed : growth.push token with
    | error other =>
      simp only [List.foldlM_cons, pushed, Bind.bind, Except.bind, Except.error.injEq] at failed
      exact ⟨[], token, tokens, growth, rfl, rfl, failed ▸ pushed⟩
    | ok next =>
      -- The first token was taken in, so it stands before the one that is refused.
      simp only [List.foldlM_cons, pushed, Bind.bind, Except.bind] at failed
      obtain ⟨before, refused, rest, middle, rfl, grown, same⟩ := ih failed
      refine ⟨token :: before, refused, rest, middle, rfl, ?_, same⟩
      simpa only [List.foldlM_cons, pushed, Bind.bind, Except.bind] using grown

/-- Tokens are refused at the first end without a list. -/
theorem firstExcess_of_foldlM {tokens : List Token} {error : Error}
    (failed : tokens.foldlM push {} = .error error) :
    ∃ before closed, FirstExcess tokens before closed ∧
      error = ⟨.structural .unstartedList, closed.location⟩ := by
  -- The fold fails at one token, before which all are taken in.
  obtain ⟨before, closed, rest, middle, rfl, grown, refused⟩ := foldlM_error failed
  obtain ⟨means, outermost, rfl⟩ := push_error refused
  -- No list is open there, so as many were closed as were opened, and this is one end more.
  have depth := foldlM_depth grown
  have counts := (opens_closes_single closed).2.1 means
  rw [outermost] at depth
  refine ⟨before, closed, ⟨by simp, ?_, ?_⟩, rfl⟩
  · rw [opens_append, closes_append]
    simp only [List.length_nil] at depth
    omega
  · intro other inside exceeds
    refine Nat.le_of_not_lt fun shorter => ?_
    -- A shorter beginning was taken in, and so closes at most as many lists as it opens.
    rw [List.length_append, List.length_singleton] at shorter
    have part := List.prefix_of_prefix_length_le inside (List.prefix_append before _)
      (Nat.le_of_lt_succ shorter)
    have bound := (foldlM_ok_iff before {}).mp ⟨middle, grown⟩ other part
    simp only [List.length_nil] at bound
    omega

end Growth

/-- A row of tokens with an excess of ends has a first one. -/
theorem exists_firstExcess {tokens before : List Token} (inside : before <+: tokens)
    (exceeds : opens before < closes before) : ∃ before closed, FirstExcess tokens before closed := by
  -- The fold over the tokens is what finds the first excess.
  cases grown : tokens.foldlM Growth.push {} with
  | error error =>
    obtain ⟨before, closed, first, -⟩ := Growth.firstExcess_of_foldlM grown
    exact ⟨before, closed, first⟩
  | ok final =>
    -- Tokens that are all taken in have no excess.
    have bound := (Growth.foldlM_ok_iff tokens {}).mp ⟨final, grown⟩ before inside
    simp only [List.length_nil] at bound
    omega

/-- Tokens that close more lists than they open hold the end of a list that was opened before. -/
theorem hasEnd_of_lt {behind : List Token} (exceeds : opens behind < closes behind) : HasEnd behind := by
  -- The first excess behind a list is its end.
  obtain ⟨inner, closed, first⟩ := exists_firstExcess List.prefix_rfl exceeds
  obtain ⟨rest, parts⟩ := first.inside
  exact ⟨inner, closed, rest, by simpa using parts.symm, first.kind, first.balanced⟩

/-- Every list that is opened in a balanced row has its end there. -/
theorem Balanced.hasEnd {tokens between rest : List Token} {opened : Token} (balanced : Balanced tokens)
    (parts : tokens = between ++ opened :: rest) (kind : opened.kind = .listOpen) : HasEnd rest := by
  -- Up to the list at least as much is opened as closed, so what follows has to make up for it.
  have before := balanced.opened between (parts ▸ List.prefix_append between _)
  have even := balanced.even
  have one := opens_of_kind kind
  have atMost := opens_closes_le opened
  rw [parts, opens_append, closes_append, opens_cons, closes_cons] at even
  exact hasEnd_of_lt (by omega)

/-- A balanced row holds no end of a list that was opened before. -/
theorem Balanced.not_hasEnd {behind : List Token} (balanced : Balanced behind) : ¬ HasEnd behind := by
  -- An end behind balanced tokens would be in excess.
  rintro ⟨inner, closed, rest, rfl, kind, innerBalanced⟩
  -- Up to that end one list more would be closed than opened.
  have bound := balanced.opened (inner ++ [closed]) (by simp)
  have one : closes [closed] = 1 := by simp [closes, kind]
  have none : opens [closed] = 0 := by simp [opens, kind]
  have even := innerBalanced.even
  rw [opens_append, closes_append] at bound
  omega

namespace LastUnmatched

variable {tokens before behind : List Token} {opened : Token}

/-- There is only one such place. -/
theorem unique (found : LastUnmatched tokens before opened behind) {before' behind' : List Token}
    {opened' : Token} (other : LastUnmatched tokens before' opened' behind') : opened = opened' := by
  -- The one that stands first would have the other behind it, which then had an end.
  rcases List.append_eq_append_iff.mp (found.parts.symm.trans other.parts) with
    ⟨between, -, same⟩ | ⟨between, -, same⟩
  · cases between with
    | nil => exact (List.cons.inj same).1
    | cons first between =>
      obtain ⟨rfl, rfl⟩ := List.cons.inj same
      exact absurd (found.last between opened' behind' rfl other.kind) other.endless
  · cases between with
    | nil => exact (List.cons.inj same).1.symm
    | cons first between =>
      obtain ⟨rfl, rfl⟩ := List.cons.inj same
      exact absurd (other.last between opened behind rfl found.kind) found.endless

/-- A row with a list that is never closed opens more lists than it closes, unless ends are in excess. -/
theorem closes_lt (found : LastUnmatched tokens before opened behind) (none : NoExcess tokens) :
    closes tokens < opens tokens := by
  -- The list is opened and never closed, and no end elsewhere makes up for it.
  have first := none before (found.parts ▸ List.prefix_append before _)
  have one := opens_of_kind found.kind
  have single := opens_closes_le opened
  -- Behind the list no end is in excess either, as the first such would be that of the list.
  have later : closes behind ≤ opens behind := by
    refine Nat.le_of_not_lt fun more => ?_
    exact found.endless (hasEnd_of_lt more)
  rw [found.parts, opens_append, closes_append, opens_cons, closes_cons]
  omega

end LastUnmatched

/-- The innermost list that is open behind tokens is the last one without an end. -/
theorem Growth.lastUnmatched {tokens : List Token} {final : Growth} {opened : OpenList}
    {enclosing : List OpenList} (grown : tokens.foldlM push {} = .ok final)
    (nested : final.enclosing = opened :: enclosing) :
    ∃ before behind, LastUnmatched tokens before opened.token behind := by
  -- The innermost open list is the last one, as everything taken in since is whole nodes.
  have start : Owns {} := ⟨by simp, by simp, by simp⟩
  obtain ⟨taken, owns⟩ := foldlM_taken grown start
  -- Behind the token that opened it stand the tokens of the nodes in it, and these are balanced.
  have parts : tokens = openTokens enclosing ++ flattenAll opened.before.reverse ++
      opened.token :: flattenAll final.nodes.reverse := by
    simpa [Growth.taken, nested, openTokens, flattenAll] using taken.symm
  have balanced : Balanced (flattenAll final.nodes.reverse) :=
    balanced_flattenAll (by simpa using owns.nodes)
  have means := owns.opened opened (by simp [nested])
  refine ⟨_, _, parts, by rw [Token.kind, means]; rfl, balanced.not_hasEnd, ?_⟩
  intro between other rest inner kind
  exact balanced.hasEnd inner kind

/-- The three ways that parsing ends: at the first end in excess, at the last list without an end, or with a
forest. -/
theorem parse_cases (tokens : List Token) :
    (∃ before closed, FirstExcess tokens before closed ∧
      parse tokens = .error ⟨.structural .unstartedList, closed.location⟩) ∨
    (NoExcess tokens ∧ ∃ before opened behind, LastUnmatched tokens before opened behind ∧
      parse tokens = .error ⟨.structural .unclosedList, opened.location⟩) ∨
    (Balanced tokens ∧ ∃ nodes, parse tokens = .ok nodes) := by
  -- The fold fails, or it ends with a list open, or with none.
  cases grown : tokens.foldlM Growth.push {} with
  | error error =>
    obtain ⟨before, closed, first, rfl⟩ := Growth.firstExcess_of_foldlM grown
    exact Or.inl ⟨before, closed, first, by simp [parse, grown, Bind.bind, Except.bind]⟩
  | ok final =>
    have none : NoExcess tokens := by
      simpa [NoExcess] using (Growth.foldlM_ok_iff tokens {}).mp ⟨final, grown⟩
    cases nested : final.enclosing with
    | nil =>
      have parsed : parse tokens = .ok final.nodes.reverse :=
        parse_eq_ok_iff.mpr ⟨final, grown, nested, rfl⟩
      exact Or.inr (Or.inr ⟨(parse_ok_iff tokens).mp ⟨_, parsed⟩, _, parsed⟩)
    | cons opened enclosing =>
      obtain ⟨before, behind, found⟩ := Growth.lastUnmatched grown nested
      refine Or.inr (Or.inl ⟨none, before, opened.token, behind, found, ?_⟩)
      simp [parse, grown, Growth.finish, nested, Bind.bind, Except.bind]

/-- Tokens are refused for an end without a list at the last token of the shortest beginning that closes more
lists than it opens. -/
theorem parse_unstarted_iff {tokens : List Token} {location : Location} :
    parse tokens = .error ⟨.structural .unstartedList, location⟩ ↔
      ∃ before closed, FirstExcess tokens before closed ∧ location = closed.location := by
  -- There are three outcomes, and for either direction two of them are excluded.
  constructor
  · intro failed
    rcases parse_cases tokens with ⟨before, closed, first, same⟩ | ⟨-, _, opened, _, -, same⟩ |
      ⟨-, nodes, same⟩
    · rw [failed] at same
      simp only [Except.error.injEq, Error.mk.injEq, true_and] at same
      exact ⟨before, closed, first, same⟩
    · simp [failed] at same
    · simp [failed] at same
  · rintro ⟨before, closed, first, rfl⟩
    have excess := first.exceeds
    rcases parse_cases tokens with ⟨_, other, otherFirst, same⟩ | ⟨none, -⟩ | ⟨balanced, -⟩
    · rw [same, otherFirst.unique first]
    · exact absurd (none _ first.inside) (by omega)
    · exact absurd (balanced.opened _ first.inside) (by omega)

/-- Tokens without an end in excess are refused for a list that is never closed at the last token that opens one
without an end. -/
theorem parse_unclosed_iff {tokens : List Token} {location : Location} :
    parse tokens = .error ⟨.structural .unclosedList, location⟩ ↔ NoExcess tokens ∧
      ∃ before opened behind, LastUnmatched tokens before opened behind ∧
        location = opened.location := by
  -- There are three outcomes, and for either direction two of them are excluded.
  constructor
  · intro failed
    rcases parse_cases tokens with ⟨_, closed, -, same⟩ | ⟨none, before, opened, behind, found, same⟩ |
      ⟨-, nodes, same⟩
    · simp [failed] at same
    · rw [failed] at same
      simp only [Except.error.injEq, Error.mk.injEq, true_and] at same
      exact ⟨none, before, opened, behind, found, same⟩
    · simp [failed] at same
  · rintro ⟨none, before, opened, behind, found, rfl⟩
    rcases parse_cases tokens with ⟨_, closed, first, -⟩ | ⟨-, _, other, _, otherFound, same⟩ |
      ⟨balanced, -⟩
    · have excess := first.exceeds
      exact absurd (none _ first.inside) (by omega)
    · rw [same, otherFound.unique found]
    · exact absurd (balanced.hasEnd found.parts found.kind) found.endless

/-- Where parsing fails. An end has no list to close exactly if some beginning closes more lists than it opens, and
the last token of the shortest such one is blamed. Otherwise a list is never closed exactly if more lists are
opened than closed, and the last token that opens one without an end is blamed. Nothing else fails, even where
the nesting is done with two stacks and every use of them is checked. -/
theorem parse_fails_iff (tokens : List Token) :
    ((∃ location, parse tokens = .error ⟨.structural .unstartedList, location⟩) ↔
      ∃ before, before <+: tokens ∧ opens before < closes before) ∧
    (∀ location, parse tokens = .error ⟨.structural .unstartedList, location⟩ ↔
      ∃ before closed, FirstExcess tokens before closed ∧ location = closed.location) ∧
    ((∃ location, parse tokens = .error ⟨.structural .unclosedList, location⟩) ↔
      NoExcess tokens ∧ closes tokens < opens tokens) ∧
    (∀ location, parse tokens = .error ⟨.structural .unclosedList, location⟩ ↔ NoExcess tokens ∧
      ∃ before opened behind, LastUnmatched tokens before opened behind ∧
        location = opened.location) ∧
    Stacks.parse tokens = Stacks.lift id (parse tokens) ∧
    ∀ failure, Stacks.parse tokens = .error failure → ∃ location,
      failure = .error ⟨.structural .unstartedList, location⟩ ∨
        failure = .error ⟨.structural .unclosedList, location⟩ := by
  -- Which error there is follows from the three outcomes, and that the program's stacks give it from their
  -- equality with the growth.
  refine ⟨?_, fun _ => parse_unstarted_iff, ?_, fun _ => parse_unclosed_iff, Stacks.parse_eq tokens, ?_⟩
  · simp only [parse_unstarted_iff]
    constructor
    · rintro ⟨_, before, closed, first, -⟩
      exact ⟨_, first.inside, first.exceeds⟩
    · rintro ⟨before, inside, exceeds⟩
      obtain ⟨before, closed, first⟩ := exists_firstExcess inside exceeds
      exact ⟨_, before, closed, first, rfl⟩
  · constructor
    · rintro ⟨location, failed⟩
      obtain ⟨none, before, opened, behind, found, -⟩ := parse_unclosed_iff.mp failed
      exact ⟨none, found.closes_lt none⟩
    · rintro ⟨none, more⟩
      -- Tokens that are parsed close as many lists as they open, and no end is in excess.
      rcases parse_cases tokens with ⟨_, closed, first, -⟩ | ⟨-, _, opened, _, -, same⟩ | ⟨balanced, -⟩
      · have excess := first.exceeds
        exact absurd (none _ first.inside) (by omega)
      · exact ⟨_, same⟩
      · have even := balanced.even
        omega
  · intro failure failed
    rw [Stacks.parse_eq] at failed
    rcases parse_cases tokens with ⟨_, closed, -, same⟩ | ⟨-, _, opened, _, -, same⟩ | ⟨-, nodes, same⟩
    · rw [same, Stacks.lift, Except.error.injEq] at failed
      exact ⟨_, Or.inl failed.symm⟩
    · rw [same, Stacks.lift, Except.error.injEq] at failed
      exact ⟨_, Or.inr failed.symm⟩
    · rw [same, Stacks.lift] at failed
      cases failed

end Sexpr
