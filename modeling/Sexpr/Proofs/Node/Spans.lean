import Sexpr.Proofs.RoundTrip
import Sexpr.Proofs.Token.Segments

/-! Spans: where the nodes of a text stand in it, and what their own parts of the text read as. -/

namespace Sexpr

/-- A part of a text: the offset at which it starts, and the one behind its end. -/
structure Span where
  start : Nat
  stop : Nat
deriving DecidableEq, Repr

/-- The characters of a text within a span. -/
def Span.cut (span : Span) (text : List Char) : List Char := (text.take span.stop).drop span.start

/-- Where a node stands in a text: from the offset of its first token to the end of the source text of its
last one. -/
def Node.span? (text : List Char) (node : Node) : Option Span := do
  let start ← node.location.offsetIn text
  let last ← node.tokens.getLast?
  let offset ← last.location.offsetIn text
  return { start, stop := offset + last.raw.length }

/-- A node of a forest, at any depth. -/
inductive Node.Occurs (forest : List Node) : Node → Prop
  | top {node : Node} (member : node ∈ forest) : Node.Occurs forest node
  | child {node : Node} {children : List Node} {tokens : List Token}
      (outer : Node.Occurs forest (.list children tokens)) (member : node ∈ children) :
      Node.Occurs forest node

/-- A row of nodes that stand between two offsets of a text, in order and without overlap. -/
inductive InOrder (text : List Char) : Nat → Nat → List Node → Prop
  | nil {start stop : Nat} (within : start ≤ stop) : InOrder text start stop []
  | cons {start stop : Nat} {span : Span} {node : Node} {nodes : List Node}
      (found : node.span? text = some span) (behind : start ≤ span.start)
      (filled : span.start < span.stop) (more : InOrder text span.stop stop nodes) :
      InOrder text start stop (node :: nodes)

/-- The children of a list stand behind the source text of the token that opens it and before the token
that closes it. -/
def Encloses (text : List Char) (tokens : List Token) (children : List Node) : Prop :=
  ∃ opened closed start stop, tokens = [opened, closed] ∧
    opened.location.offsetIn text = some start ∧ closed.location.offsetIn text = some stop ∧
    InOrder text (start + opened.raw.length) stop children

/-- A node that stands in a text: behind what comes before it is a part that its tokens take up. -/
structure Node.Stands (path : Option Path) (text : List Char) (node : Node)
    (before body : List Char) : Prop where
  within : before ++ body <+: text
  covers : Covers (positionAt path text before.length) body node.flatten

/-- A node that other tokens which mean the same as its own make up again. -/
def Node.Remade (node : Node) : Prop :=
  ∀ tokens : List Token, tokens.map Token.lexeme = node.flatten.map Token.lexeme →
    ∃ again : Node, again.Owns ∧ again.flatten = tokens ∧ again.agrees node = true

variable {path : Option Path} {text : List Char}

/-- The nodes stay in order if more of the text in front of them is looked at. -/
theorem InOrder.from_earlier {start earlier stop : Nat} {nodes : List Node}
    (order : InOrder text start stop nodes) (less : earlier ≤ start) :
    InOrder text earlier stop nodes := by
  -- Only the first node looks at the start.
  cases order with
  | nil within => exact .nil (Nat.le_trans less within)
  | cons found behind filled more => exact .cons found (Nat.le_trans less behind) filled more

/-- The nodes stay in order if more of the text behind them is looked at. -/
theorem InOrder.to_later {start stop later : Nat} {nodes : List Node}
    (order : InOrder text start stop nodes) (less : stop ≤ later) :
    InOrder text start later nodes := by
  -- The induction is on the row, of which only the empty one looks at the end.
  induction order with
  | nil within => exact .nil (Nat.le_trans within less)
  | cons found behind filled _ ih => exact .cons found behind filled (ih less)

/-- A span that stops behind a prefix cuts out what that ends with. -/
theorem Span.cut_of_prefix {before body : List Char} (within : before ++ body <+: text) :
    Span.cut { start := before.length, stop := (before ++ body).length } text = body := by
  -- What follows the part is dropped by its end, and what precedes it by its start.
  obtain ⟨behind, rfl⟩ := within
  rw [Span.cut, List.take_left, List.drop_left]

namespace Node

/-- The tokens that a node keeps are the first and the last of all that belong to it. -/
theorem Owns.ends {node : Node} (owns : node.Owns) :
    node.tokens.head? = node.flatten.head? ∧ node.tokens.getLast? = node.flatten.getLast? := by
  -- The tokens of an atom are one, and those of a list are its two ends.
  cases owns with
  | atom means => exact ⟨rfl, rfl⟩
  | list opens closes all => exact ⟨rfl, List.getLast?_concat.symm⟩

/-- A node has a token. -/
theorem Owns.flatten_ne_nil {node : Node} (owns : node.Owns) : node.flatten ≠ [] := by
  -- An atom has its token, and a list the one that opens it.
  cases owns <;> simp [flatten]

/-- A node spans the part of the text that it stands in. -/
theorem Stands.span? {node : Node} {before body : List Char}
    (stands : node.Stands path text before body) (owns : node.Owns) :
    node.span? text = some { start := before.length, stop := (before ++ body).length } := by
  -- The span is found from the locations of the first and the last token.
  have filled := owns.flatten_ne_nil
  have opens := List.head?_eq_some_head filled
  have closes := List.getLast?_eq_some_getLast filled
  generalize node.flatten.head filled = first at opens
  generalize node.flatten.getLast filled = last at closes
  -- The first token stands where the part begins, and the source text of the last one ends it.
  obtain ⟨inner, rfl, ends⟩ := stands.covers.last last closes
  have inFront : before <+: text := .trans (by simp) stands.within
  have inInner : before ++ inner <+: text := .trans (by simp) stands.within
  rw [advanceOver_positionAt path inInner] at ends
  have start := offsetIn_positionAt path inFront.length_le
  have stop := offsetIn_positionAt path inInner.length_le
  obtain ⟨head, tail⟩ := owns.ends
  have place : node.location = positionAt path text before.length := by
    rw [location, head, opens]
    exact stands.covers.first first opens
  simp only [Node.span?, place, start, tail, closes, ends, stop, Bind.bind, Option.bind, Pure.pure]
  simp [String.length_toList, Nat.add_assoc]

/-- The nodes that a stretch of a text reads as stand in it, in order. -/
theorem stands_of_stretch {nodes : List Node} (owns : ∀ node ∈ nodes, node.Owns) :
    ∀ {before run : List Char}, Stretch path text before run (flattenAll nodes) →
      InOrder text before.length (before ++ run).length nodes ∧
        ∀ node ∈ nodes, ∃ before body, node.Stands path text before body := by
  -- The induction is on the nodes, with the stretch that they are read from left open.
  induction nodes with
  | nil => exact fun _ => ⟨.nil (by simp), by simp⟩
  | cons node nodes ih =>
    intro before run stretch
    obtain ⟨owned, ownedMore⟩ := List.forall_mem_cons.mp owns
    -- The tokens of the first node take up a part of the stretch, and the others stand behind it.
    obtain ⟨front, back, rfl, first, more⟩ := stretch.split
    obtain ⟨lead, body, trail, rfl, within, covers⟩ := first.covers owned.flatten_ne_nil
    have stands : node.Stands path text (before ++ lead) body := ⟨within, covers⟩
    obtain ⟨order, standMore⟩ := ih ownedMore more
    refine ⟨?_, List.forall_mem_cons.mpr ⟨⟨_, _, stands⟩, standMore⟩⟩
    rw [← List.append_assoc]
    have filled := List.length_pos_iff.mpr (covers.ne_nil owned.flatten_ne_nil)
    exact .cons (stands.span? owned) (by simp) (by simpa using filled) (order.from_earlier (by simp))

/-- The children of a list stand between its ends, in order. -/
theorem Stands.children {children : List Node} {opened closed : Token} {before body : List Char}
    (stands : (Node.list children [opened, closed]).Stands path text before body)
    (owns : ∀ child ∈ children, child.Owns) : Encloses text [opened, closed] children ∧
      ∀ child ∈ children, ∃ before body, child.Stands path text before body := by
  -- The list stands as the token that opens it, those of its children, and the one that closes it.
  have whole : Stretch path text before body ([opened] ++ (flattenAll children ++ [closed])) := by
    have all := Stretch.of_reads stands.within stands.covers.reads
    simpa [flatten] using all
  obtain ⟨front, behind, rfl, opening, more⟩ := whole.split
  obtain ⟨run, back, rfl, inner, closing⟩ := more.split
  obtain ⟨lead, trail, rfl, openedAt⟩ := opening.single
  obtain ⟨gap, rest, rfl, closedAt⟩ := closing.single
  obtain ⟨order, stand⟩ := stands_of_stretch owns inner
  -- Blanks may lie between the children and either end.
  refine ⟨⟨opened, closed, _, _, rfl, openedAt, closedAt, ?_⟩, stand⟩
  apply (order.from_earlier _).to_later
  · simp
  · simp [String.length_toList, Nat.add_assoc]

/-- In a forest whose nodes stand in a text every node does, at any depth. -/
theorem Occurs.stands {forest : List Node} {node : Node} (occurs : Occurs forest node)
    (owns : ∀ node ∈ forest, node.Owns)
    (stand : ∀ node ∈ forest, ∃ before body, node.Stands path text before body) :
    node.Owns ∧ ∃ before body, node.Stands path text before body := by
  -- The induction is on where the node occurs, from the top down.
  induction occurs with
  | top member => exact ⟨owns _ member, stand _ member⟩
  | child _ member ih =>
    obtain ⟨owned, before, body, stands⟩ := ih
    -- A list that owns its tokens has one for each end, between which its children stand.
    cases owned with
    | list opens closes all =>
      exact ⟨all _ member, (stands.children all).2 _ member⟩

/-- A row of nodes is made up again if each of them is. -/
theorem remade_row {nodes : List Node} (each : ∀ node ∈ nodes, node.Remade) :
    ∀ tokens : List Token, tokens.map Token.lexeme = (flattenAll nodes).map Token.lexeme →
      ∃ again : List Node, (∀ node ∈ again, node.Owns) ∧ flattenAll again = tokens ∧
        allAgree again nodes = true := by
  -- The induction is on the nodes, with the other tokens left open.
  induction nodes with
  | nil =>
    intro tokens same
    obtain rfl : tokens = [] := by simpa [flattenAll] using same
    exact ⟨[], by simp, rfl, rfl⟩
  | cons node nodes ih =>
    intro tokens same
    obtain ⟨remade, others⟩ := List.forall_mem_cons.mp each
    -- As many tokens as the first node has make it up, and the others the rest of the row.
    rw [flattenAll, List.map_append] at same
    obtain ⟨front, back, rfl, sameFirst, sameMore⟩ := List.map_eq_append_iff.mp same
    obtain ⟨again, owns, rfl, agree⟩ := remade front sameFirst
    obtain ⟨more, ownsMore, rfl, agreeMore⟩ := ih others back sameMore
    exact ⟨again :: more, List.forall_mem_cons.mpr ⟨owns, ownsMore⟩, rfl, by
      simp [allAgree, agree, agreeMore]⟩

/-- A node whose tokens are spelled is made up again by tokens that mean the same. -/
theorem Owns.remade {node : Node} (owns : node.Owns) :
    (∀ token ∈ node.flatten, Spells token.raw.toList token.lexeme) → node.Remade := by
  -- By induction the children are made again from their own tokens.
  induction owns with
  | @atom value token means =>
    intro spelled tokens same
    have spells := spelled token List.mem_cons_self
    rw [means] at spells
    obtain ⟨other, rfl, alike⟩ : ∃ other, tokens = [other] ∧ other.lexeme = .atom value := by
      simpa [flatten, means, List.map_eq_singleton_iff] using same
    exact ⟨.atom value [other], .atom alike, rfl, (Atom.legible_of_spells spells).agrees_self [other] [token]⟩
  | @list children opened closed opens closes _ ih =>
    intro spelled tokens same
    have inner := remade_row fun child member => ih child member fun token among =>
      spelled token (mem_flatten_list member among)
    -- The first and the last token are the ends of the list again.
    obtain ⟨first, between, last, rfl, alikeFirst, sameInner, alikeLast⟩ :
        ∃ first between last, tokens = first :: (between ++ [last]) ∧
          first.lexeme = opened.lexeme ∧
          between.map Token.lexeme = (flattenAll children).map Token.lexeme ∧
          last.lexeme = closed.lexeme := by
      simp only [flatten, List.take_succ_cons, List.take_zero, List.drop_succ_cons, List.drop_zero,
        List.cons_append, List.nil_append, List.map_cons, List.map_append, List.map_nil] at same
      obtain ⟨first, more, rfl, alikeFirst, more⟩ := List.map_eq_cons_iff.mp same
      obtain ⟨between, ending, rfl, sameInner, alike⟩ := List.map_eq_append_iff.mp more
      obtain ⟨last, rfl, alikeLast⟩ := List.map_eq_singleton_iff.mp alike
      exact ⟨first, between, last, rfl, alikeFirst, sameInner, alikeLast⟩
    obtain ⟨again, ownsAgain, rfl, agree⟩ := inner between sameInner
    refine ⟨.list again [first, last], .list ?_ ?_ ownsAgain, by simp [flatten], ?_⟩
    · rw [alikeFirst, opens]
    · rw [alikeLast, closes]
    · simpa [agrees] using agree

/-- A node reads back from the part of a text that its tokens take up. -/
theorem parseText_of_covers {node : Node} {place : Location} {body : List Char}
    (covers : Covers place body node.flatten) (owns : node.Owns) (other : Option Path) :
    ∃ again, parseText (String.ofList body) other false = .ok [again] ∧
      again.agrees node = true := by
  -- The part alone reads as tokens that mean the same, and these make up the node again.
  obtain ⟨tokens, final, reads, same⟩ := covers.reads.elsewhere { path := other }
  obtain ⟨again, ownsAgain, rfl, agree⟩ := owns.remade covers.reads.spelled tokens same
  refine ⟨again, parseText_eq_ok_iff.mpr ⟨[again], final, by simpa using ownsAgain, ?_, rfl⟩, agree⟩
  simpa [flattenAll] using reads

end Node

/-- Every node of what a text reads as, at any depth, has a span in the text. The characters within it
alone read as one node, which agrees with it, and if it is a list then its children have their spans
between its two ends, in order and without overlap. -/
theorem parseText_span {text : String} {path : Option Path} {nodes : List Node}
    (read : parseText text path false = .ok nodes) (other : Option Path) :
    ∀ node, Node.Occurs nodes node → ∃ span, node.span? text.toList = some span ∧
      (∃ again, parseText (String.ofList (span.cut text.toList)) other false = .ok [again] ∧
        again.agrees node = true) ∧
      ∀ children tokens, node = .list children tokens → Encloses text.toList tokens children := by
  -- A node stands in the text where its tokens were read from, and what they were read from reads back alone.
  intro node occurs
  obtain ⟨_, final, owns, reads, rfl⟩ := parseText_eq_ok_iff.mp read
  -- The whole text is a stretch that the forest is read from.
  have stretch : Stretch path text.toList [] text.toList (flattenAll nodes) :=
    .of_reads (List.prefix_refl _) (positionAt_zero path text.toList ▸ reads)
  have stand := (Node.stands_of_stretch owns stretch).2
  obtain ⟨owned, before, body, stands⟩ := occurs.stands owns stand
  refine ⟨_, stands.span? owned, ?_, ?_⟩
  · rw [Span.cut_of_prefix stands.within]
    exact Node.parseText_of_covers stands.covers owned other
  · intro children tokens same
    subst same
    cases owned with
    | list opens closes all => exact (stands.children all).1

/-- A list with a text over two lines in it, behind a comment, reads back from its part of the text. -/
theorem parseText_span_twoLines : ∃ nodes children tokens,
    parseText "(;b\n(\"\n\"))" none false = .ok nodes ∧
      Node.Occurs nodes (.list children tokens) ∧
      ∃ span, (Node.list children tokens).span? "(;b\n(\"\n\"))".toList = some span ∧
        span.cut "(;b\n(\"\n\"))".toList = ['(', '"', '\n', '"', ')'] ∧
        (∃ again, parseText (String.ofList (span.cut "(;b\n(\"\n\"))".toList)) none false =
          .ok [again] ∧ again.agrees (.list children tokens) = true) ∧
        Encloses "(;b\n(\"\n\"))".toList tokens children := by
  -- The list stands behind a comment in another one, and a string in it goes over the end of the line.
  let note : Token := { lexeme := .atom (.comment "b"), raw := ";b", location := { column := 1 } }
  let lines : Token :=
    { lexeme := .atom (.string "\n"), raw := "\"\n\"", location := { line := 1, column := 1 } }
  let inner : Node := .list [.atom (.string "\n") [lines]]
    [{ lexeme := .listOpen, raw := "(", location := { line := 1 } },
      { lexeme := .listClose, raw := ")", location := { line := 2, column := 1 } }]
  let outer : Node := .list [.atom (.comment "b") [note], inner]
    [{ lexeme := .listOpen, raw := "(" },
      { lexeme := .listClose, raw := ")", location := { line := 2, column := 2 } }]
  have read : parseText "(;b\n(\"\n\"))" none false = .ok [outer] := by cbv
  have occurs : Node.Occurs [outer] inner := .child (.top List.mem_cons_self) (by simp)
  obtain ⟨span, found, again, encloses⟩ := parseText_span read none inner occurs
  refine ⟨[outer], _, _, read, occurs, span, found, ?_, again, encloses _ _ rfl⟩
  -- The inner list takes up the five characters before the last one.
  have place : inner.span? "(;b\n(\"\n\"))".toList = some { start := 4, stop := 9 } := by cbv
  obtain rfl := Option.some.inj (place.symm.trans found)
  rfl

end Sexpr
