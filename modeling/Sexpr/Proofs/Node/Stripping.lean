import Mathlib.Data.List.Basic
import Sexpr.Node.Transform
import Sexpr.Proofs.Node.Comments
import Sexpr.Proofs.Node.Flatten
import Sexpr.Reading

/-! Stripping comments from a forest is the same as parsing without the comment tokens. -/

namespace Sexpr

/-- A row of tokens without the comments in it. -/
def dropComments (tokens : List Token) : List Token :=
  tokens.filter fun token => token.kind != .comment

/-- What a walk that strips comments does with a node on its way down. -/
def Node.visitUncommented (node : Node) : Visit :=
  if node.is .comment then .drop else .keep .descend

/-- Stripping does not depend on the direction in which nodes are listed. -/
theorem stripComments_reverse (nodes : List Node) :
    stripComments nodes.reverse = (stripComments nodes).reverse := by
  -- Stripping is a filter, and that may run from either end.
  simp only [stripComments_eq_filterMap, List.filterMap_reverse]

/-- Without effects a walk over a row keeps what is left of each of its nodes, in order. -/
theorem Node.transformAllWith_eq_filterMap (inside : List Node → Id (List Node)) (before : Node → Id Visit)
    (after : Node → Id (Option Node)) (nodes : List Node) :
    transformAllWith (m := Id) inside before after nodes =
      nodes.filterMap (transformWith (m := Id) inside before after) := by
  induction nodes with
  | nil => rfl
  | cons node nodes ih =>
    simp only [transformAllWith, Bind.bind, Pure.pure, ih]
    rw [List.filterMap_cons]
    -- A node that is dropped leaves nothing in either form.
    cases transformWith (m := Id) inside before after node <;> rfl

/-- Walking over a row of nodes strips it, if that is so of each of them. -/
theorem transformAllWith_visitUncommented {inside : List Node → Id (List Node)} {nodes : List Node}
    (each : ∀ node ∈ nodes, Node.transformWith (m := Id) inside Node.visitUncommented some node =
      node.withoutComments) :
    Node.transformAllWith (m := Id) inside Node.visitUncommented some nodes =
      stripComments nodes := by
  -- Both sides are filters over the nodes, so they agree if they do for each.
  rw [Node.transformAllWith_eq_filterMap, stripComments_eq_filterMap]
  exact List.filterMap_congr each

/-- Stripping a node is a walk over it that drops comments on the way down and keeps what is left on
the way up, however deep replacements might nest. -/
theorem transform_visitUncommented (limit : Nat) (node : Node) :
    Node.transform (m := Id) limit Node.visitUncommented some node = node.withoutComments := by
  -- By induction the walk leaves of every child what stripping leaves.
  rw [Node.transform]
  induction node with
  | atom value tokens => cases value <;> rfl
  | list children tokens ih =>
    -- A list is no comment, so the walk goes on to its children and keeps its tokens.
    have visited : (Node.list children tokens).visitUncommented = .keep .descend := rfl
    simp only [Node.transformWith, Node.withoutComments, visited, Bind.bind,
      transformAllWith_visitUncommented ih]

namespace Growth

/-- A growing forest without the comments in it. -/
def withoutComments (growth : Growth) : Growth where
  nodes := stripComments growth.nodes
  enclosing := growth.enclosing.map fun opened =>
    { opened with before := stripComments opened.before }

/-- A comment leaves nothing in a growing forest. -/
theorem push_comment (growth : Growth) {token : Token} (comment : token.kind = .comment) :
    ∃ next, growth.push token = .ok next ∧ next.withoutComments = growth.withoutComments := by
  -- A comment is an atom, so it becomes a node, and that is stripped at once.
  cases means : token.lexeme with
  | listOpen => simp [Token.kind, means, Lexeme.kind] at comment
  | listClose => simp [Token.kind, means, Lexeme.kind] at comment
  | atom value =>
    have isComment : value.tokenKind = .comment := by
      simpa [Token.kind, means, Lexeme.kind] using comment
    simp [push, means, withoutComments, stripComments, Node.withoutComments_atom, isComment]

/-- Any other token is taken in alike, whether comments were taken in before or not. -/
theorem push_withoutComments (growth : Growth) {token : Token} (kept : token.kind ≠ .comment) :
    growth.withoutComments.push token = (growth.push token).map withoutComments := by
  -- The case is the token, of which comments are excluded.
  cases means : token.lexeme with
  | listOpen => simp [push, means, withoutComments, stripComments, Except.map]
  | listClose =>
    -- The list that closes is stripped with its children, and takes the same place.
    cases nested : growth.enclosing with
    | nil => simp [push, means, withoutComments, nested, Except.map]
    | cons opened enclosing =>
      simp [push, means, withoutComments, nested, stripComments, Node.withoutComments,
        stripComments_reverse, Except.map]
  | atom value =>
    have noComment : value.tokenKind ≠ .comment := by
      simpa [Token.kind, means, Lexeme.kind] using kept
    simp [push, means, withoutComments, stripComments, Node.withoutComments_atom, noComment,
      Except.map]

/-- A row of tokens is taken in alike without the comments in it. -/
theorem foldlM_dropComments (tokens : List Token) (growth : Growth) :
    (dropComments tokens).foldlM push growth.withoutComments =
      (tokens.foldlM push growth).map withoutComments := by
  -- The induction is on the tokens, with the growth left open.
  induction tokens generalizing growth with
  | nil => rfl
  | cons token tokens ih =>
    by_cases comment : token.kind = .comment
    · -- The comment is taken in on one side only, where it leaves nothing.
      obtain ⟨next, pushed, same⟩ := growth.push_comment comment
      have dropped : dropComments (token :: tokens) = dropComments tokens := by
        simp [dropComments, comment]
      rw [dropped, ← same, ih, List.foldlM_cons, pushed]
      rfl
    · -- Any other token is taken in on both sides, or refused on both.
      have kept : dropComments (token :: tokens) = token :: dropComments tokens := by
        simp [dropComments, comment]
      rw [kept, List.foldlM_cons, List.foldlM_cons, growth.push_withoutComments comment]
      cases growth.push token with
      | error error => rfl
      | ok next => exact ih next

/-- A forest is finished alike without the comments in it. -/
theorem finish_withoutComments (growth : Growth) :
    growth.withoutComments.finish = growth.finish.map stripComments := by
  -- The same lists are open, and the innermost of them has the same token.
  cases outermost : growth.enclosing with
  | nil => simp [finish, withoutComments, outermost, stripComments_reverse, Except.map]
  | cons opened enclosing => simp [finish, withoutComments, outermost, Except.map]

end Growth

/-- Parsing without the comment tokens is parsing and then stripping. -/
theorem parse_dropComments (tokens : List Token) :
    parse (dropComments tokens) = (parse tokens).map stripComments := by
  -- The fold commutes with stripping, and so does the look at the end.
  have start : Growth.withoutComments {} = {} := rfl
  have grown := Growth.foldlM_dropComments tokens {}
  rw [start] at grown
  rw [parse, parse, grown]
  cases tokens.foldlM Growth.push {} with
  | error error => rfl
  | ok final => exact final.finish_withoutComments

/-- A text that has tokens is read without comments as these are parsed without the comment tokens. -/
theorem parseText_of_tokenize {text : String} {path : Option Path} {tokens : List Token}
    (scanned : tokenize text path = .ok tokens) :
    parseText text path = parse (dropComments tokens) := by
  -- With comments ignored the text is parsed from its tokens and stripped.
  rw [parse_dropComments]
  simp only [parseText, scanned, Bind.bind, Except.bind, Pure.pure, Except.pure, if_true]
  cases parse tokens <;> rfl

/-- What is read without comments holds none at any depth. -/
theorem bare_of_parseText {text : String} {path : Option Path} {nodes : List Node}
    (read : parseText text path = .ok nodes) : ∀ node ∈ nodes, node.Bare := by
  -- The text has tokens, as it is parsed.
  cases scanned : tokenize text path with
  | error error => simp [parseText, scanned, Bind.bind, Except.bind] at read
  | ok tokens =>
    -- The forest is that of the tokens, stripped.
    rw [parseText_of_tokenize scanned, parse_dropComments] at read
    cases parsed : parse tokens with
    | error error => simp [parsed, Except.map] at read
    | ok forest =>
      simp only [parsed, Except.map, Except.ok.injEq] at read
      rw [← read]
      exact bare_of_mem_stripComments

/-- Stripping comments is dropping their tokens beforehand. It gives the forest that the tokens
without comments are parsed as, token by token, and fails with the same error; so does reading a
text, and no comment is left at any depth, so that stripping again changes nothing. -/
theorem stripComments_of_parse :
    (∀ limit nodes, nodes.filterMap (Node.transform (m := Id) limit Node.visitUncommented some) =
      stripComments nodes) ∧
    (∀ tokens nodes, parse tokens = .ok nodes →
      parse (dropComments tokens) = .ok (stripComments nodes)) ∧
    (∀ tokens error, parse tokens = .error error → parse (dropComments tokens) = .error error) ∧
    ∀ text path tokens, tokenize text path = .ok tokens →
      parseText text path = parse (dropComments tokens) ∧
      ∀ nodes, parseText text path = .ok nodes →
        (∀ node ∈ nodes, node.Bare) ∧ stripComments nodes = nodes := by
  -- Stripping a growth as it is built or dropping the comments first comes to the same, and what is stripped
  -- has no comment left to strip.
  refine ⟨?_, ?_, ?_, ?_⟩
  · intro limit nodes
    rw [stripComments_eq_filterMap]
    exact congrArg nodes.filterMap (funext (transform_visitUncommented limit))
  · intro tokens nodes parsed
    rw [parse_dropComments, parsed]
    rfl
  · intro tokens error failed
    rw [parse_dropComments, failed]
    rfl
  · intro text path tokens scanned
    refine ⟨parseText_of_tokenize scanned, fun nodes read => ?_⟩
    have bare := bare_of_parseText read
    exact ⟨bare, stripComments_of_bare bare⟩

end Sexpr
