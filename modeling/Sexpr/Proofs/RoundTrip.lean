import Sexpr.Proofs.Node.Text
import Sexpr.Reading

/-! Round trips: the text of what was read reads as the same forest, and has the same text again. -/

namespace Sexpr

/-- A text reads as the forest whose tokens it reads as, with or without the comments in it. -/
theorem parseText_eq_ok_iff {text : String} {path : Option Path} {ignoreComments : Bool}
    {nodes : List Node} : parseText text path ignoreComments = .ok nodes ↔
      ∃ (forest : List Node) (final : Location), (∀ node ∈ forest, node.Owns) ∧
        Reads { path } text.toList (flattenAll forest) final [] ∧
        nodes = if ignoreComments then stripComments forest else forest := by
  -- Parsing a text is scanning it, parsing the tokens and perhaps stripping.
  constructor
  · intro read
    -- Both stages have succeeded, as an error of either would be the result.
    cases scanned : tokenize text path with
    | error error => simp [parseText, scanned, Bind.bind, Except.bind] at read
    | ok tokens =>
      cases parsed : parse tokens with
      | error error => simp [parseText, scanned, parsed, Bind.bind, Except.bind] at read
      | ok forest =>
        simp only [parseText, scanned, parsed, Bind.bind, Except.bind, Pure.pure, Except.pure,
          Except.ok.injEq] at read
        -- The forest owns the tokens that it was parsed from, and these were read.
        obtain ⟨rfl, owns⟩ := flattenAll_of_parse parsed
        obtain ⟨final, reads⟩ := tokenize_eq_ok_iff.mp scanned
        exact ⟨forest, final, owns, reads, read.symm⟩
  · intro whole
    obtain ⟨forest, final, owns, reads, rfl⟩ := whole
    have scanned := tokenize_eq_ok_iff.mpr ⟨final, reads⟩
    simp [parseText, scanned, parse_flattenAll owns, Bind.bind, Except.bind, Pure.pure, Except.pure]

/-- Every token of a node that was read is spelled by its source text. -/
theorem Reads.spelled_of_mem {place final : Location} {text rest : List Char} {forest : List Node} {node : Node}
    (read : Reads place text (flattenAll forest) final rest) (member : node ∈ forest) :
    ∀ token ∈ node.flatten, Spells token.raw.toList token.lexeme := by
  intro token among
  exact read.spelled token (mem_flattenAll.mpr ⟨node, member, among⟩)

/-- What is left of a node without its comments is written, if its tokens were spelled. -/
theorem Node.written_of_withoutComments {node : Node} (owns : node.Owns) :
    (∀ token ∈ node.flatten, Spells token.raw.toList token.lexeme) →
      ∀ kept, node.withoutComments = some kept → kept.Written := by
  -- An atom was spelled in the text, and by induction so was everything in a list.
  induction owns with
  | @atom value token means =>
    intro spelled kept left
    rw [withoutComments_atom] at left
    split at left
    · -- Of a comment nothing is left.
      cases left
    · rename_i notComment
      cases left
      have spells := spelled token List.mem_cons_self
      rw [means] at spells
      exact .atom (Atom.written_of_spells spells notComment)
  | @list children opened closed _ _ _ ih =>
    intro spelled kept left
    rw [withoutComments] at left
    cases left
    apply Written.list
    intro child member
    obtain ⟨node, inside, left⟩ := mem_stripComments.mp member
    exact ih node inside (fun token among => spelled token (mem_flatten_list inside among)) child left

/-- What is read without comments is written and holds no comment. -/
theorem written_of_parseText {text : String} {path : Option Path} {nodes : List Node}
    (read : parseText text path = .ok nodes) : ∀ node ∈ nodes, node.Written ∧ node.Bare := by
  -- What is left of the forest has no comments, and all its atoms were spelled in the text.
  obtain ⟨forest, final, owns, reads, rfl⟩ := parseText_eq_ok_iff.mp read
  intro kept member
  refine ⟨?_, bare_of_mem_stripComments kept member⟩
  obtain ⟨node, inside, left⟩ := mem_stripComments.mp member
  exact Node.written_of_withoutComments (owns node inside) (reads.spelled_of_mem inside) kept left

/-- The text of legible nodes is read as these nodes again, trimmed. -/
theorem parseText_of_legible {nodes : List Node} (legible : ∀ node ∈ nodes, node.Legible)
    (path : Option Path) : ∃ again, parseText (Node.spaced nodes) path false = .ok again ∧
      List.Forall₂ Node.Echoes again (nodes.map Node.trimmed) := by
  -- At the start of a text the nodes read back up to its end.
  have each : List.Forall₂ Node.ReadsAs nodes (nodes.map Node.trimmed) := by
    rw [List.forall₂_map_right_iff, List.forall₂_same]
    exact fun node member => (legible node member).readsAs
  obtain ⟨again, final, echoes, reads⟩ := Node.readsAs_spaced each { path } [] rfl
  rw [List.append_nil] at reads
  have owns := Node.owns_of_echoes echoes
  exact ⟨again, parseText_eq_ok_iff.mpr ⟨again, final, owns, reads, rfl⟩, echoes⟩

/-- The text of written nodes is read as these nodes again. -/
theorem parseText_of_written {nodes : List Node} (written : ∀ node ∈ nodes, node.Written)
    (path : Option Path) : ∃ again, parseText (Node.spaced nodes) path false = .ok again ∧
      List.Forall₂ Node.Echoes again nodes := by
  -- Written nodes are legible, and trimming them changes nothing.
  have same : nodes.map Node.trimmed = nodes := by
    rw [List.map_congr_left fun node member => (written node member).trimmed, List.map_id']
  simpa only [same] using parseText_of_legible (fun node member => (written node member).legible) path

/-- Reading without comments is undone by writing and done again by reading. What a text is read as,
written with one space between the nodes, is read as nodes that agree with these one by one, and
these have the same text. -/
theorem parseText_roundTrip {text : String} {path : Option Path} {nodes : List Node}
    (read : parseText text path = .ok nodes) (other : Option Path) :
    ∃ again, parseText (Node.spaced nodes) other = .ok again ∧
      Node.allAgree again nodes = true ∧ Node.spaced again = Node.spaced nodes := by
  -- Everything that was parsed is written, and what is written reads back as an echo.
  have all := written_of_parseText read
  obtain ⟨again, readAgain, echoes⟩ :=
    parseText_of_written (fun node member => (all node member).1) other
  refine ⟨again, ?_, Node.allAgree_of_echoes echoes, Node.spaced_of_echoes echoes⟩
  -- The text was written without comments, so ignoring them makes no difference.
  obtain ⟨_, final, owns, reads, rfl⟩ := parseText_eq_ok_iff.mp readAgain
  have bare := Node.bare_of_echoes echoes fun node member => (all node member).2
  have kept := stripComments_of_bare bare
  exact parseText_eq_ok_iff.mpr ⟨again, final, owns, reads, kept.symm⟩

/-- Negative zero is read with its sign, written without it, and read again as the other zero. -/
theorem parseText_roundTrip_zero : ∃ nodes, parseText "(-0)" = .ok nodes ∧
    Node.spaced nodes = "(0)" ∧ ∃ again, parseText "(0)" = .ok again ∧
      Node.allAgree again nodes = true ∧ Node.spaced again = "(0)" := by
  -- A zero with its sign is what the text does not keep.
  have inRange : 0 < Binary64.rankCount := by decide
  have nearest : Binary64.nearestRank 0 (10 ^ 0) = 0 :=
    Binary64.nearestRank_of_eq (by decide) (by simp [Binary64.units_eq])
  -- The literal is read by the grammar, and the parentheses stand around it.
  have zero : Spells ['-', '0'] (.atom (.number (.finite true 0 inRange))) := by
    have spelled := Spells.number (Literal.ofPlaces true 0 0)
      (Literal.denotes_ofPlaces inRange nearest)
    rwa [Literal.chars_ofPlaces] at spelled
  let opened : Token := { lexeme := .listOpen, raw := "(" }
  let number : Token :=
    { lexeme := .atom (.number (.finite true 0 inRange)), raw := "-0", location := { column := 1 } }
  let closed : Token := { lexeme := .listClose, raw := ")", location := { column := 3 } }
  have reads : Reads {} "(-0)".toList [opened, number, closed] { column := 4 } [] :=
    .token .listOpen (Lexeme.ends_of_apart rfl (by decide) ['-', '0', ')'])
      (.token zero (Lexeme.ends_of_word rfl rfl)
        (.token .listClose (Lexeme.ends_of_apart rfl (by decide) []) .done))
  let nodes : List Node := [.list [.atom (.number (.finite true 0 inRange)) [number]] [opened, closed]]
  have owns : ∀ node ∈ nodes, node.Owns := by
    simpa [nodes] using Node.Owns.list rfl rfl (by simpa using Node.Owns.atom rfl)
  have read : parseText "(-0)" = .ok nodes := parseText_eq_ok_iff.mpr ⟨nodes, _, owns, reads, rfl⟩
  have written : Node.spaced nodes = "(0)" := by
    rw [show Node.spaced nodes = "(" ++ (Binary64.finite true 0 inRange).text ++ ")" from rfl,
      Binary64.text_zero]
    rfl
  obtain ⟨again, readAgain, agree, same⟩ := parseText_roundTrip read none
  rw [written] at readAgain same
  exact ⟨nodes, read, written, again, readAgain, agree, same⟩

end Sexpr
