import Sexpr.Proofs.Node.Flatten

/-! Nesting with two stacks, one of unfinished lists and one of the tokens that opened them, where every use
of a stack and of a token is checked. Only the checks for unbalanced lists ever fail, so this is parsing. -/

namespace Sexpr

/-- How nesting with stacks can fail: with an error of its own, or at a stack with nothing on it. -/
inductive StackFailure where
  | error (error : Error)
  | empty
deriving DecidableEq

/-- The nodes of each unfinished list, innermost first, above those that stand in no list; and the tokens that
opened these lists, innermost first. -/
structure Stacks where
  frames : List (List Node) := [[]]
  opened : List Token := []

namespace Stacks

/-- Takes the top off a stack, which must have one. -/
def takeTop {α : Type} : List α → Except StackFailure (α × List α)
  | [] => .error .empty
  | top :: below => .ok (top, below)

/-- The outcome of something that cannot find a stack empty. -/
def lift {α β : Type} (wrap : α → β) : Except Error α → Except StackFailure β
  | .ok value => .ok (wrap value)
  | .error error => .error (.error error)

/-- Takes in one more token, with every check on the way. -/
def step (state : Stacks) (token : Token) : Except StackFailure Stacks :=
  if token.kind = .listOpen then
    return ⟨[] :: state.frames, token :: state.opened⟩
  else if token.kind = .listClose then
    if state.frames.length = 1 then
      throw (.error ⟨.structural .unstartedList, token.location⟩)
    else do
      let (children, frames) ← takeTop state.frames
      let (opening, opened) ← takeTop state.opened
      -- The list that is finished has to have a place in another one, or at the top.
      if frames.isEmpty then
        throw (.error ⟨.structural .stackUnderflow, token.location⟩)
      else
        let (nodes, outer) ← takeTop frames
        return ⟨(nodes ++ [.list children [opening, token]]) :: outer, opened⟩
  else do
    let (nodes, outer) ← takeTop state.frames
    let node ← lift id (Node.ofToken token)
    return ⟨(nodes ++ [node]) :: outer, state.opened⟩

/-- The finished forest, unless a list is still open. -/
def finish (state : Stacks) : Except StackFailure (List Node) := do
  if state.frames.length = 1 then
    return (← takeTop state.frames).1
  else
    throw (.error ⟨.structural .unclosedList, (← takeTop state.opened).1.location⟩)

/-- The forest that tokens spell, nested with two stacks. -/
def parse (tokens : List Token) : Except StackFailure (List Node) := do
  (← tokens.foldlM step {}).finish

/-- The stacks behind a growing forest: an open list has a place on each of them. -/
def ofGrowth (growth : Growth) : Stacks where
  frames := growth.nodes.reverse :: growth.enclosing.map fun opened => opened.before.reverse
  opened := growth.enclosing.map OpenList.token

/-- With the stacks behind a growing forest a step is that of the forest. In particular both stacks have what is
taken from them, and below a finished list there is always another one. -/
theorem step_ofGrowth (growth : Growth) (token : Token) :
    (ofGrowth growth).step token = lift ofGrowth (growth.push token) := by
  -- The case is the token, and for a token that closes a list also whether one is open.
  cases means : token.lexeme with
  | listOpen => simp [step, Token.kind, means, Lexeme.kind, Growth.push, lift, ofGrowth, Pure.pure, Except.pure]
  | listClose =>
    -- A list is open exactly if a second frame lies below the innermost one.
    cases nested : growth.enclosing with
    | nil => simp [step, Token.kind, means, Lexeme.kind, Growth.push, lift, ofGrowth, nested, throw, throwThe,
        MonadExceptOf.throw]
    | cons opened enclosing => simp [step, Token.kind, means, Lexeme.kind, Growth.push, lift, ofGrowth, nested,
        takeTop, Bind.bind, Except.bind, Pure.pure, Except.pure]
  | atom value =>
    -- A token that is no list end is an atom, so it becomes a node.
    have isAtom : token.kind ≠ .listOpen ∧ token.kind ≠ .listClose := by
      rw [Token.kind, means]
      cases value <;> simp [Lexeme.kind, Atom.tokenKind]
    simp [step, isAtom, Node.ofToken, means, Growth.push, lift, ofGrowth, takeTop, Bind.bind, Except.bind,
      Pure.pure, Except.pure]

/-- A row of tokens is taken in with the stacks as it is by the forest. -/
theorem foldlM_ofGrowth (tokens : List Token) (growth : Growth) :
    tokens.foldlM step (ofGrowth growth) = lift ofGrowth (tokens.foldlM Growth.push growth) := by
  -- The induction is on the tokens, with the growth left open.
  induction tokens generalizing growth with
  | nil => rfl
  | cons token tokens ih =>
    rw [List.foldlM_cons, List.foldlM_cons, step_ofGrowth]
    cases growth.push token with
    | error error => rfl
    | ok next => exact ih next

/-- The stacks end like the forest: with one frame, or with a list that is open. -/
theorem finish_ofGrowth (growth : Growth) : (ofGrowth growth).finish = lift id growth.finish := by
  -- With a list still open both end with the error, and otherwise with the nodes.
  cases nested : growth.enclosing with
  | nil => simp [finish, Growth.finish, ofGrowth, nested, takeTop, lift, Bind.bind, Except.bind, Pure.pure,
      Except.pure]
  | cons opened enclosing => simp [finish, Growth.finish, ofGrowth, nested, takeTop, lift, Bind.bind,
      Except.bind, throw, throwThe, MonadExceptOf.throw]

/-- Nesting with stacks is parsing: it gives the same forest or fails with the same error, and never finds a
stack empty. -/
theorem parse_eq (tokens : List Token) : Stacks.parse tokens = lift id (Sexpr.parse tokens) := by
  -- Both start with nothing taken in and no list open.
  have start : ofGrowth {} = {} := rfl
  have grown := foldlM_ofGrowth tokens {}
  rw [start] at grown
  rw [Stacks.parse, Sexpr.parse, grown]
  cases tokens.foldlM Growth.push {} with
  | error error => rfl
  | ok final => exact finish_ofGrowth final

end Stacks

end Sexpr
