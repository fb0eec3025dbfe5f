import Sexpr.Proofs.ReadBack

/-! Round trips with comments kept: what was read is read again from its text, but for one carriage return
at the end of each comment. -/

namespace Sexpr

/-- A node none of whose comments, at any depth, ends with a carriage return. -/
inductive Node.Steady : Node → Prop
  | atom {value : Atom} {tokens : List Token} (steady : ∀ contents, value = .comment contents →
      contents.toList.getLast? ≠ some '\r') : Node.Steady (.atom value tokens)
  | list {children : List Node} {tokens : List Token} (all : ∀ child ∈ children, child.Steady) :
      Node.Steady (.list children tokens)

/-- A node whose tokens are spelled is legible. -/
theorem Node.Owns.legible {node : Node} (owns : node.Owns) :
    (∀ token ∈ node.flatten, Spells token.raw.toList token.lexeme) → node.Legible := by
  -- An atom is spelled by its token, and by induction every child is legible.
  induction owns with
  | @atom value token means =>
    intro spelled
    have spells := spelled token List.mem_cons_self
    rw [means] at spells
    exact .atom (Atom.legible_of_spells spells)
  | list _ _ _ ih =>
    intro spelled
    exact .list fun child member => ih child member fun token among =>
      spelled token (mem_flatten_list member among)

/-- What is read with comments is legible. -/
theorem legible_of_parseText {text : String} {path : Option Path} {nodes : List Node}
    (read : parseText text path false = .ok nodes) : ∀ node ∈ nodes, node.Legible := by
  -- The forest owns the tokens that were read.
  obtain ⟨_, final, owns, reads, rfl⟩ := parseText_eq_ok_iff.mp read
  intro node member
  exact (owns node member).legible (reads.spelled_of_mem member)

namespace Node

/-- Trimming a steady node changes nothing. -/
theorem Steady.trimmed {node : Node} (steady : node.Steady) : node.trimmed = node := by
  -- The induction is on the node, none of whose comments ends with a carriage return.
  induction steady with
  | @atom value tokens steady =>
    cases value with
    | comment contents =>
      rw [Node.trimmed, Atom.trimmed, dropReturn, if_neg (steady contents rfl), String.ofList_toList]
    | bool => rfl
    | number => rfl
    | string => rfl
    | identifier => rfl
  | list _ ih => rw [Node.trimmed, trimmedAll_eq_map, List.map_congr_left ih, List.map_id']

/-- A node whose text has at most as many carriage returns when it is trimmed, and which is steady if it
has as many. -/
structure LosesReturns (node : Node) : Prop where
  atMost : returns node.trimmed.text.toList ≤ returns node.text.toList
  steady : returns node.text.toList ≤ returns node.trimmed.text.toList → node.Steady

/-- The same holds of a row of nodes, if it holds of each of them. -/
theorem returns_trimmed {nodes : List Node} (each : ∀ node ∈ nodes, node.LosesReturns) :
    returns (spaced (nodes.map Node.trimmed)).toList ≤ returns (spaced nodes).toList ∧
      (returns (spaced nodes).toList ≤ returns (spaced (nodes.map Node.trimmed)).toList →
        ∀ node ∈ nodes, node.Steady) := by
  -- The induction adds up what the nodes lose one by one.
  induction nodes with
  | nil => simp
  | cons node nodes ih =>
    obtain ⟨loses, others⟩ := List.forall_mem_cons.mp each
    obtain ⟨atMost, steady⟩ := ih others
    have first := loses.atMost
    -- No other node can make up for what one of them loses.
    rw [List.map_cons, returns_spaced_cons, returns_spaced_cons]
    refine ⟨by omega, fun enough => ?_⟩
    exact List.forall_mem_cons.mpr ⟨loses.steady (by omega), steady (by omega)⟩

/-- Trimming takes a carriage return off each comment that ends with one. -/
theorem losesReturns (node : Node) : node.LosesReturns := by
  -- The induction is on the node, and only a comment can lose any.
  induction node with
  | atom value tokens =>
    cases value with
    | comment contents =>
      have text := Atom.returns_comment contents.toList
      have trimmedText := Atom.returns_comment (dropReturn contents.toList)
      rw [String.ofList_toList] at text
      -- A comment that loses none does not end with one.
      rcases returns_dropReturn contents.toList with fewer | ⟨same, last⟩
      · constructor
        · simp only [Node.trimmed, Atom.trimmed, Node.text, text, trimmedText]
          omega
        · simp only [Node.trimmed, Atom.trimmed, Node.text, text, trimmedText]
          omega
      · have kept : (Node.atom (.comment contents) tokens).trimmed = .atom (.comment contents) tokens := by
          rw [Node.trimmed, Atom.trimmed, same, String.ofList_toList]
        refine ⟨by rw [kept], fun _ => .atom fun other equal => ?_⟩
        cases equal
        exact last
    | _ => exact ⟨Nat.le_refl _, fun _ => .atom (by simp)⟩
  | list children tokens ih =>
    have inner := returns_trimmed ih
    rw [← returns_list children tokens, ← returns_list (children.map Node.trimmed) tokens] at inner
    constructor
    · rw [Node.trimmed, trimmedAll_eq_map]
      exact inner.1
    · rw [Node.trimmed, trimmedAll_eq_map]
      exact fun enough => .list (inner.2 enough)

end Node

/-- What a text is read as, comments included, and written with one space between the nodes can always be
read again. Each comment has then lost a carriage return at its end, if it had any, and nothing else has
changed. So the same forest comes back, and has the same text again, exactly if none of its comments, at
any depth, ends with a carriage return. -/
theorem parseText_roundTrip_kept {text : String} {path : Option Path} {nodes : List Node}
    (read : parseText text path false = .ok nodes) (other : Option Path) :
    ∃ again, parseText (Node.spaced nodes) other false = .ok again ∧
      Node.allAgree again (nodes.map Node.trimmed) = true ∧
      (Node.allAgree again nodes = true ↔ ∀ node ∈ nodes, node.Steady) ∧
      (Node.spaced again = Node.spaced nodes ↔ ∀ node ∈ nodes, node.Steady) := by
  -- The text reads back as the trimmed nodes, and carriage returns are counted to see whether that is less.
  obtain ⟨again, readAgain, echoes⟩ := parseText_of_legible (legible_of_parseText read) other
  have agree := Node.allAgree_of_echoes echoes
  have written := Node.spaced_of_echoes echoes
  -- The text of what was read again has all carriage returns only if trimming took none away.
  have steady : Node.spaced again = Node.spaced nodes → ∀ node ∈ nodes, node.Steady := by
    intro same
    apply (Node.returns_trimmed fun node _ => node.losesReturns).2
    rw [← written, same]
  have kept : (∀ node ∈ nodes, node.Steady) → nodes.map Node.trimmed = nodes := by
    intro all
    rw [List.map_congr_left fun node member => (all node member).trimmed, List.map_id']
  refine ⟨again, readAgain, agree, ⟨fun same => ?_, fun all => ?_⟩, ⟨steady, fun all => ?_⟩⟩
  · -- Nodes that agree have the same text.
    exact steady (Node.spaced_congr ((Node.allAgree_iff_forall₂.mp same).imp fun _ _ =>
      Node.text_of_agrees))
  · rw [kept all] at agree
    exact agree
  · rw [kept all] at written
    exact written

/-- Of two carriage returns behind a semicolon the first is the comment, which is not read again. -/
theorem parseText_roundTrip_kept_returns : ∃ nodes again tokens,
    parseText ";\r\r" none false = .ok nodes ∧ Node.spaced nodes = ";\r\n" ∧
      parseText ";\r\n" none false = .ok again ∧
      Node.allAgree again [.atom (.comment "") tokens] = true ∧ ¬ Node.allAgree again nodes = true ∧
      Node.spaced again ≠ Node.spaced nodes := by
  -- The second of two carriage returns belongs to the end of the line, and the first is left in the comment.
  let note : Token := { lexeme := .atom (.comment "\r"), raw := ";\r\r" }
  have read : parseText ";\r\r" none false = .ok [.atom (.comment "\r") [note]] := by cbv
  have text : Node.spaced [.atom (.comment "\r") [note]] = ";\r\n" := by cbv
  have unsteady : ¬ ∀ node ∈ [Node.atom (.comment "\r") [note]], node.Steady := by
    intro all
    cases all _ List.mem_cons_self with
    | atom steady => exact steady "\r" rfl (by decide)
  obtain ⟨again, readAgain, trimmed, agree, same⟩ := parseText_roundTrip_kept read none
  have cut : [Node.atom (.comment "\r") [note]].map Node.trimmed = [.atom (.comment "") [note]] := by
    cbv
  rw [text] at readAgain
  rw [cut] at trimmed
  exact ⟨_, again, _, read, text, readAgain, trimmed, mt agree.mp unsteady, mt same.mp unsteady⟩

end Sexpr
