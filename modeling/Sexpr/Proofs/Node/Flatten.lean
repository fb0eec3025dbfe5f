import Sexpr.Node.Forest

/-! Parsing and flattening are inverse: forests that own their tokens stand for balanced token lists. -/

namespace Sexpr

mutual

/-- The tokens of a node in source order: those of an atom, and for a list those of its children
between the token that opens it and the one that closes it. -/
def Node.flatten : Node → List Token
  | .atom _ tokens => tokens
  | .list children tokens => tokens.take 1 ++ flattenAll children ++ tokens.drop 1

/-- The tokens of a forest in source order. -/
def flattenAll : List Node → List Token
  | [] => []
  | node :: nodes => node.flatten ++ flattenAll nodes

end

/-- A node that owns its tokens: one of its value for an atom, and one for each end of a list. -/
inductive Node.Owns : Node → Prop
  | atom {value : Atom} {token : Token} (means : token.lexeme = .atom value) :
      Node.Owns (.atom value [token])
  | list {children : List Node} {opened closed : Token} (opens : opened.lexeme = .listOpen)
      (closes : closed.lexeme = .listClose) (all : ∀ child ∈ children, child.Owns) :
      Node.Owns (.list children [opened, closed])

/-- How many lists a row of tokens opens. -/
def opens (tokens : List Token) : Nat := tokens.countP fun token => token.kind == .listOpen

/-- How many lists a row of tokens closes. -/
def closes (tokens : List Token) : Nat := tokens.countP fun token => token.kind == .listClose

/-- A balanced row of tokens: it closes all lists that it opens, and none before it is opened. -/
structure Balanced (tokens : List Token) : Prop where
  even : opens tokens = closes tokens
  opened : ∀ before, before <+: tokens → closes before ≤ opens before

@[simp] theorem flattenAll_append (nodes others : List Node) :
    flattenAll (nodes ++ others) = flattenAll nodes ++ flattenAll others := by
  -- The tokens of the first forest come before those of the second, node by node.
  induction nodes with
  | nil => rfl
  | cons node nodes ih => simp [flattenAll, ih]

/-- The tokens of a forest are those of its nodes. -/
theorem mem_flattenAll {nodes : List Node} {token : Token} :
    token ∈ flattenAll nodes ↔ ∃ node ∈ nodes, token ∈ node.flatten := by
  -- The induction is on the nodes, whose tokens follow one another.
  induction nodes with
  | nil => simp [flattenAll]
  | cons node nodes ih => simp [flattenAll, ih]

/-- The tokens of a child are among those of the list. -/
theorem mem_flatten_list {children : List Node} {tokens : List Token} {child : Node} {token : Token}
    (member : child ∈ children) (among : token ∈ child.flatten) :
    token ∈ (Node.list children tokens).flatten := by
  -- Between its two ends a list flattens to its children.
  have inside := mem_flattenAll.mpr ⟨child, member, among⟩
  simp [Node.flatten, inside]

/-- What a row of tokens opens, one token at a time. -/
theorem opens_cons (token : Token) (tokens : List Token) :
    opens (token :: tokens) = opens [token] + opens tokens := by
  simp [opens, List.countP_cons, Nat.add_comm]

/-- What a row of tokens closes, one token at a time. -/
theorem closes_cons (token : Token) (tokens : List Token) :
    closes (token :: tokens) = closes [token] + closes tokens := by
  simp [closes, List.countP_cons, Nat.add_comm]

/-- A token opens or closes one list at most, as its lexeme says. -/
theorem opens_closes_single (token : Token) :
    (token.lexeme = .listOpen → opens [token] = 1 ∧ closes [token] = 0) ∧
      (token.lexeme = .listClose → opens [token] = 0 ∧ closes [token] = 1) ∧
      ∀ value, token.lexeme = .atom value → opens [token] = 0 ∧ closes [token] = 0 := by
  -- The class of a token follows from its lexeme, and no atom has that of a list end.
  refine ⟨?_, ?_, ?_⟩
  · intro means
    simp [opens, closes, Token.kind, means, Lexeme.kind]
  · intro means
    simp [opens, closes, Token.kind, means, Lexeme.kind]
  · intro value means
    cases value <;> simp [opens, closes, Token.kind, means, Lexeme.kind, Atom.tokenKind]

namespace Growth

/-- The tokens of the lists that are open, each behind what stands before it. -/
def openTokens : List OpenList → List Token
  | [] => []
  | opened :: enclosing =>
    openTokens enclosing ++ flattenAll opened.before.reverse ++ [opened.token]

/-- The tokens that a growing forest has taken in. -/
def taken (growth : Growth) : List Token :=
  openTokens growth.enclosing ++ flattenAll growth.nodes.reverse

/-- A growing forest whose nodes own their tokens and whose open lists were opened. -/
structure Owns (growth : Growth) : Prop where
  nodes : ∀ node ∈ growth.nodes, node.Owns
  before : ∀ opened ∈ growth.enclosing, ∀ node ∈ opened.before, node.Owns
  opened : ∀ opened ∈ growth.enclosing, opened.token.lexeme = .listOpen

/-- All that taking in a token can do. -/
theorem push_cases (growth : Growth) (token : Token) :
    (token.lexeme = .listOpen ∧
      growth.push token = .ok ⟨[], ⟨token, growth.nodes⟩ :: growth.enclosing⟩) ∨
    (token.lexeme = .listClose ∧ growth.enclosing = [] ∧
      growth.push token = .error ⟨.structural .unstartedList, token.location⟩) ∨
    (∃ opened enclosing, token.lexeme = .listClose ∧ growth.enclosing = opened :: enclosing ∧
      growth.push token =
        .ok ⟨.list growth.nodes.reverse [opened.token, token] :: opened.before, enclosing⟩) ∨
    ∃ value, token.lexeme = .atom value ∧
      growth.push token = .ok ⟨.atom value [token] :: growth.nodes, growth.enclosing⟩ := by
  -- The lexeme decides, and behind a list end whether a list is open.
  cases same : token.lexeme with
  | listOpen => exact Or.inl ⟨rfl, by simp [push, same]⟩
  | listClose =>
    cases nested : growth.enclosing with
    | nil => exact Or.inr (Or.inl ⟨rfl, rfl, by simp [push, same, nested]⟩)
    | cons opened enclosing =>
      exact Or.inr (Or.inr (Or.inl ⟨opened, enclosing, rfl, rfl, by simp [push, same, nested]⟩))
  | atom value => exact Or.inr (Or.inr (Or.inr ⟨value, rfl, by simp [push, same]⟩))

/-- Only the end of a list is refused, where none is open. -/
theorem push_error {growth : Growth} {token : Token} {error : Error}
    (refused : growth.push token = .error error) :
    token.lexeme = .listClose ∧ growth.enclosing = [] ∧
      error = ⟨.structural .unstartedList, token.location⟩ := by
  -- Of the four ways that a token is taken in only one refuses it.
  obtain ⟨-, same⟩ | ⟨means, outermost, same⟩ | ⟨opened, enclosing, -, -, same⟩ | ⟨value, -, same⟩ :=
    growth.push_cases token
  · rw [same] at refused
    cases refused
  · exact ⟨means, outermost, Except.error.inj (refused.symm.trans same)⟩
  · rw [same] at refused
    cases refused
  · rw [same] at refused
    cases refused

/-- Taking in a token puts it behind those taken in before, and every new node owns its tokens. -/
theorem push_taken {growth next : Growth} {token : Token} (pushed : growth.push token = .ok next)
    (owns : growth.Owns) : next.taken = growth.taken ++ [token] ∧ next.Owns := by
  -- The cases are those of the push, and a refused token is none of them here.
  obtain ⟨opens, same⟩ | ⟨closes, outermost, same⟩ | ⟨opened, enclosing, closes, nested, same⟩ |
    ⟨value, means, same⟩ := growth.push_cases token
  · -- A list that opens sets the nodes aside, and its token stands behind them.
    obtain rfl := Except.ok.inj (same.symm.trans pushed)
    refine ⟨by simp [taken, openTokens, flattenAll], by simp, ?_, ?_⟩
    · simpa using ⟨owns.nodes, owns.before⟩
    · simpa using ⟨opens, owns.opened⟩
  · rw [same] at pushed
    cases pushed
  · -- A list that closes becomes one node, which flattens to what was set aside and taken in.
    obtain rfl := Except.ok.inj (same.symm.trans pushed)
    have before := owns.before
    have isOpen := owns.opened
    simp only [nested, List.mem_cons, forall_eq_or_imp] at before isOpen
    refine ⟨?_, ?_, before.2, isOpen.2⟩
    · simp [taken, openTokens, flattenAll, Node.flatten, nested]
    · simpa using ⟨.list isOpen.1 closes (by simpa using owns.nodes), before.1⟩
  · -- An atom becomes a node of its own.
    obtain rfl := Except.ok.inj (same.symm.trans pushed)
    refine ⟨by simp [taken, flattenAll, Node.flatten], ?_, owns.before, owns.opened⟩
    simpa using ⟨.atom means, owns.nodes⟩

/-- Taking in a row of tokens puts them behind those taken in before. -/
theorem foldlM_taken {growth final : Growth} {tokens : List Token}
    (grown : tokens.foldlM push growth = .ok final) (owns : growth.Owns) :
    final.taken = growth.taken ++ tokens ∧ final.Owns := by
  -- The invariant goes from each token to the next, as one step keeps it.
  induction tokens generalizing growth with
  | nil =>
    obtain rfl : growth = final := by simpa [Pure.pure, Except.pure] using grown
    exact ⟨by simp, owns⟩
  | cons token tokens ih =>
    cases pushed : growth.push token with
    | error error => simp [pushed, Bind.bind, Except.bind] at grown
    | ok next =>
      simp only [List.foldlM_cons, pushed, Bind.bind, Except.bind] at grown
      obtain ⟨taken, nextOwns⟩ := push_taken pushed owns
      obtain ⟨all, finalOwns⟩ := ih grown nextOwns
      exact ⟨by simp [all, taken], finalOwns⟩

/-- Each token changes the depth by the list that it opens or closes. -/
theorem push_depth {growth next : Growth} {token : Token} (pushed : growth.push token = .ok next) :
    next.enclosing.length + closes [token] = growth.enclosing.length + opens [token] := by
  -- Only list ends change how many lists are open.
  obtain ⟨means, same⟩ | ⟨means, outermost, same⟩ | ⟨opened, enclosing, means, nested, same⟩ |
    ⟨value, means, same⟩ := growth.push_cases token
  · obtain rfl := Except.ok.inj (same.symm.trans pushed)
    simp [(opens_closes_single token).1 means]
  · rw [same] at pushed
    cases pushed
  · obtain rfl := Except.ok.inj (same.symm.trans pushed)
    simp [(opens_closes_single token).2.1 means, nested]
  · obtain rfl := Except.ok.inj (same.symm.trans pushed)
    simp [(opens_closes_single token).2.2 value means]

/-- A row of tokens is taken in exactly if it never closes more lists than are open. -/
theorem foldlM_ok_iff (tokens : List Token) (growth : Growth) :
    (∃ final, tokens.foldlM push growth = .ok final) ↔
      ∀ before, before <+: tokens → closes before ≤ growth.enclosing.length + opens before := by
  -- The induction is on the tokens, with the growth left open, as the bound starts from its depth.
  induction tokens generalizing growth with
  | nil => simp [Pure.pure, Except.pure, closes]
  | cons token tokens ih =>
    cases pushed : growth.push token with
    | error error =>
      -- The refused token closes a list where none is open, and alone shows too many ends.
      obtain ⟨means, outermost, -⟩ := push_error pushed
      have counts := (opens_closes_single token).2.1 means
      simp only [List.foldlM_cons, pushed, Bind.bind, Except.bind, reduceCtorEq, exists_false,
        false_iff]
      intro all
      simpa [counts, outermost] using all [token] (by simp)
    | ok next =>
      -- What the first token does to the depth shifts the bound for all that follows.
      have depth := push_depth pushed
      simp only [List.foldlM_cons, pushed, Bind.bind, Except.bind, ih]
      constructor
      · intro all before inside
        rcases List.prefix_cons_iff.mp inside with rfl | ⟨others, rfl, othersInside⟩
        · simp [closes]
        · have := all others othersInside
          rw [opens_cons, closes_cons]
          omega
      · intro all before inside
        have := all (token :: before) (List.cons_prefix_cons.mpr ⟨rfl, inside⟩)
        rw [opens_cons, closes_cons] at this
        omega

/-- A row of tokens changes the depth by the lists that it opens and closes. -/
theorem foldlM_depth {growth final : Growth} {tokens : List Token}
    (grown : tokens.foldlM push growth = .ok final) :
    final.enclosing.length + closes tokens = growth.enclosing.length + opens tokens := by
  -- The induction is on the tokens, with the growth left open.
  induction tokens generalizing growth with
  | nil =>
    obtain rfl : growth = final := by simpa [Pure.pure, Except.pure] using grown
    simp [closes, opens]
  | cons token tokens ih =>
    cases pushed : growth.push token with
    | error error => simp [pushed, Bind.bind, Except.bind] at grown
    | ok next =>
      simp only [List.foldlM_cons, pushed, Bind.bind, Except.bind] at grown
      -- The change of the first token adds to that of the others.
      have first := push_depth pushed
      have others := ih grown
      rw [opens_cons, closes_cons]
      omega

/-- A forest is finished exactly if no list is open. -/
theorem finish_eq_ok_iff {growth : Growth} {nodes : List Node} :
    growth.finish = .ok nodes ↔ growth.enclosing = [] ∧ nodes = growth.nodes.reverse := by
  -- The end looks only at whether a list is still open.
  cases outermost : growth.enclosing <;> simp [finish, outermost, eq_comm]

end Growth

/-- A forest is parsed when its tokens have been taken in and no list is left open. -/
theorem parse_eq_ok_iff {tokens : List Token} {nodes : List Node} :
    parse tokens = .ok nodes ↔ ∃ final : Growth, tokens.foldlM Growth.push {} = .ok final ∧
      final.enclosing = [] ∧ nodes = final.nodes.reverse := by
  -- Parsing is the fold over the tokens and the look at the end, and each may fail.
  cases grown : tokens.foldlM Growth.push {} with
  | error error => simp [parse, grown, Bind.bind, Except.bind]
  | ok final => simp [parse, grown, Bind.bind, Except.bind, Growth.finish_eq_ok_iff]

/-- A parsed forest owns its tokens, and flattening it gives them back. -/
theorem flattenAll_of_parse {tokens : List Token} {nodes : List Node}
    (parsed : parse tokens = .ok nodes) :
    flattenAll nodes = tokens ∧ ∀ node ∈ nodes, node.Owns := by
  -- The fold keeps the invariant, and at the end nothing is set aside.
  obtain ⟨final, grown, outermost, rfl⟩ := parse_eq_ok_iff.mp parsed
  -- Nothing is taken in at the start, so the invariant holds there.
  have start : Growth.Owns {} := ⟨by simp, by simp, by simp⟩
  obtain ⟨taken, owns⟩ := Growth.foldlM_taken grown start
  constructor
  · simpa [Growth.taken, outermost, Growth.openTokens, flattenAll] using taken
  · simpa using owns.nodes

/-- Exactly the balanced rows of tokens can be parsed. -/
theorem parse_ok_iff (tokens : List Token) :
    (∃ nodes, parse tokens = .ok nodes) ↔ Balanced tokens := by
  -- The tokens are all taken in if no end is in excess, and no list is left open if the counts are even.
  constructor
  · intro parses
    obtain ⟨nodes, parsed⟩ := parses
    obtain ⟨final, grown, outermost, -⟩ := parse_eq_ok_iff.mp parsed
    -- At the end no list is open, so as many were closed as were opened.
    have depth := Growth.foldlM_depth grown
    have opened := (Growth.foldlM_ok_iff tokens {}).mp ⟨final, grown⟩
    refine ⟨by simpa [outermost] using depth.symm, fun before inside => ?_⟩
    simpa using opened before inside
  · intro balanced
    -- No token is refused, and at the end no list is open.
    obtain ⟨final, grown⟩ := (Growth.foldlM_ok_iff tokens {}).mpr (by simpa using balanced.opened)
    have depth := Growth.foldlM_depth grown
    have outermost : final.enclosing = [] := by
      rw [← List.length_eq_zero_iff]
      have even := balanced.even
      simp only [List.length_nil] at depth
      omega
    exact ⟨_, parse_eq_ok_iff.mpr ⟨final, grown, outermost, rfl⟩⟩

namespace Growth

/-- Taking in the tokens of a forest adds its nodes, if that is so of each of them. -/
theorem foldlM_flattenAll {nodes : List Node} (each : ∀ node ∈ nodes, ∀ growth : Growth,
      node.flatten.foldlM push growth = .ok { growth with nodes := node :: growth.nodes })
    (growth : Growth) : (flattenAll nodes).foldlM push growth =
      .ok { growth with nodes := nodes.reverse ++ growth.nodes } := by
  -- The induction is on the nodes, with the growth left open.
  induction nodes generalizing growth with
  | nil => rfl
  | cons node nodes ih =>
    -- The first node is taken in before the others, and so stands below them.
    have first := each node (by simp) growth
    have others := ih (fun other member => each other (by simp [member]))
      { growth with nodes := node :: growth.nodes }
    simp only [flattenAll, List.foldlM_append, first, Bind.bind, Except.bind, others]
    simp

/-- Taking in the tokens of a node adds the node. -/
theorem foldlM_flatten {node : Node} (owns : node.Owns) (growth : Growth) :
    node.flatten.foldlM push growth = .ok { growth with nodes := node :: growth.nodes } := by
  -- The token that opens a list sets aside what stands before it, and its end takes that up again.
  induction owns generalizing growth with
  | atom means => simp [Node.flatten, push, means, Bind.bind, Except.bind, Pure.pure, Except.pure]
  | @list children opened closed opens closes _ ih =>
    have inner := foldlM_flattenAll ih ⟨[], ⟨opened, growth.nodes⟩ :: growth.enclosing⟩
    simp only [List.append_nil] at inner
    simp only [Node.flatten, List.take_succ_cons, List.take_zero, List.drop_succ_cons,
      List.drop_zero, List.cons_append, List.nil_append, List.foldlM_cons, List.foldlM_append,
      push, opens, Bind.bind, Except.bind, inner]
    simp [closes, Pure.pure, Except.pure]

end Growth

/-- A forest that owns its tokens is what they are parsed as. -/
theorem parse_flattenAll {forest : List Node} (owns : ∀ node ∈ forest, node.Owns) :
    parse (flattenAll forest) = .ok forest := by
  -- All nodes of the forest are taken in, and no list is open behind them.
  have grown := Growth.foldlM_flattenAll
    (fun node member => Growth.foldlM_flatten (owns node member)) {}
  exact parse_eq_ok_iff.mpr ⟨_, grown, rfl, by simp⟩

/-- The tokens of a forest that owns them are balanced. -/
theorem balanced_flattenAll {forest : List Node} (owns : ∀ node ∈ forest, node.Owns) :
    Balanced (flattenAll forest) :=
  -- These tokens are parsed, and so are balanced.
  (parse_ok_iff _).mp ⟨forest, parse_flattenAll owns⟩

/-- Parsing and flattening are inverse. Exactly the balanced rows of tokens can be parsed, a parsed
forest flattens to the tokens that it was parsed from, and a forest that owns its tokens is what
they are parsed as. -/
theorem parse_inverse_flatten :
    (∀ tokens, ((∃ nodes, parse tokens = .ok nodes) ↔ Balanced tokens) ∧
      ∀ nodes, parse tokens = .ok nodes → flattenAll nodes = tokens ∧ ∀ node ∈ nodes, node.Owns) ∧
    ∀ forest : List Node, (∀ node ∈ forest, node.Owns) → parse (flattenAll forest) = .ok forest := by
  -- One direction is about rows of tokens, the other about forests.
  constructor
  · intro tokens
    exact ⟨parse_ok_iff tokens, fun nodes parsed => flattenAll_of_parse parsed⟩
  · intro forest owns
    exact parse_flattenAll owns

end Sexpr
