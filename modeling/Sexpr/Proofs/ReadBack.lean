import Sexpr.Proofs.RoundTrip

/-! Reading back: a node is read again from its text exactly if all its payloads are written.

A comment that ends with a carriage return is the hard case, as its text is read without that. The proof
counts: whatever reading drops is missing from the text of what was read. -/

namespace Sexpr

/-- How many carriage returns a run of characters holds. -/
def returns (chars : List Char) : Nat := chars.count '\r'

/-- How many carriage returns the source texts of tokens hold. -/
def rawReturns (tokens : List Token) : Nat := (tokens.map fun token => returns token.raw.toList).sum

@[simp] theorem returns_append (chars others : List Char) :
    returns (chars ++ others) = returns chars + returns others := List.count_append

@[simp] theorem rawReturns_append (tokens others : List Token) :
    rawReturns (tokens ++ others) = rawReturns tokens + rawReturns others := by
  simp [rawReturns]

/-- A carriage return is a delimiter, so a word holds none. -/
theorem returns_of_inside {word : List Char} (inside : ∀ char ∈ word, isDelimiter char = false) :
    returns word = 0 := by
  -- A carriage return is a blank, and no blank is inside a word.
  rw [returns, List.count_eq_zero]
  intro member
  simpa [isDelimiter, isBlank] using inside '\r' member

/-- The text of a finite number holds no carriage return. -/
theorem Binary64.returns_text {value : Binary64} (finite : value.isFinite = true) :
    returns value.text.toList = 0 := by
  -- The text is a literal, which holds no delimiter.
  obtain ⟨literal, chars, -⟩ := toChars_denotes finite
  rw [text, String.toList_ofList, ← chars]
  exact returns_of_inside literal.inside

/-- The text of a comment holds the carriage returns of its contents. -/
theorem Atom.returns_comment (contents : List Char) :
    returns (Atom.comment (String.ofList contents)).text.toList = returns contents := by
  -- Neither the semicolon nor the line feed is a carriage return.
  simp [text, returns]

/-- A line loses a carriage return or is left as it is. -/
theorem returns_dropReturn (line : List Char) :
    returns (dropReturn line) + 1 = returns line ∨
      dropReturn line = line ∧ line.getLast? ≠ some '\r' := by
  -- The line ends with a carriage return or not.
  rw [dropReturn]
  split
  · rename_i last
    have parts := List.dropLast_append_getLast? '\r' last
    left
    conv_rhs => rw [← parts]
    simp [returns]
  · rename_i last
    exact Or.inr ⟨rfl, last⟩

/-- The text of an atom holds at most as many carriage returns as its source text. An atom whose text
holds as many is written. -/
theorem Spells.returns_le {raw : List Char} {value : Atom} (spelled : Spells raw (.atom value)) :
    returns value.text.toList ≤ returns raw ∧
      (returns raw ≤ returns value.text.toList → value.Written) := by
  -- Only a comment can hold a carriage return that its text has not.
  by_cases comment : value.tokenKind = .comment
  · cases spelled with
    | @comment line inLine =>
      rw [Atom.returns_comment, show returns (';' :: line) = returns line by simp [returns]]
      -- Only a comment that keeps all of its line has as many.
      rcases returns_dropReturn line with fewer | ⟨same, last⟩
      · omega
      · rw [same]
        exact ⟨Nat.le_refl _, fun _ => .comment (by simpa using inLine) (by simpa using last)⟩
    | string => cases comment
    | number => cases comment
    | bool => cases comment
    | identifier => cases comment
  · have written := Atom.written_of_spells spelled comment
    refine ⟨?_, fun _ => written⟩
    cases spelled with
    | comment => exact absurd rfl comment
    | string => simp [Atom.text]
    | number literal denotes =>
      cases written with
      | number finite => simp [Atom.text, Binary64.returns_text finite]
    | bool value => cases value <;> exact Nat.le_refl _
    | identifier => simp [Atom.text]

/-- A node whose text holds at most as many carriage returns as the source texts of its tokens, and
which is written if it holds as many. -/
structure Node.KeepsReturns (node : Node) : Prop where
  atMost : returns node.text.toList ≤ rawReturns node.flatten
  written : rawReturns node.flatten ≤ returns node.text.toList → node.Written

/-- The spaces between nodes are no carriage returns. -/
theorem returns_spaced_cons (node : Node) (nodes : List Node) :
    returns (Node.spaced (node :: nodes)).toList =
      returns node.text.toList + returns (Node.spaced nodes).toList := by
  -- A space is no carriage return.
  cases nodes <;> simp [Node.spaced, returns]

/-- The same holds of a row of nodes, if it holds of each of them. -/
theorem returns_spaced {nodes : List Node} (each : ∀ node ∈ nodes, node.KeepsReturns) :
    returns (Node.spaced nodes).toList ≤ rawReturns (flattenAll nodes) ∧
      (rawReturns (flattenAll nodes) ≤ returns (Node.spaced nodes).toList →
        ∀ node ∈ nodes, node.Written) := by
  -- The induction adds up what the nodes keep one by one.
  induction nodes with
  | nil => simp [Node.spaced, returns]
  | cons node nodes ih =>
    obtain ⟨keeps, others⟩ := List.forall_mem_cons.mp each
    obtain ⟨atMost, written⟩ := ih others
    have first := keeps.atMost
    -- As none of the two sides can make up for the other, both have as many.
    rw [returns_spaced_cons, flattenAll, rawReturns_append]
    refine ⟨by omega, fun enough => ?_⟩
    exact List.forall_mem_cons.mpr ⟨keeps.written (by omega), written (by omega)⟩

/-- The parentheses of a list are no carriage returns. -/
theorem Node.returns_list (children : List Node) (tokens : List Token) :
    returns (Node.list children tokens).text.toList = returns (spaced children).toList := by
  -- The parentheses are no carriage returns.
  simp [Node.text, returns]

/-- A node whose tokens are spelled has at most the carriage returns of their source texts. -/
theorem Node.keepsReturns {node : Node} (owns : node.Owns) :
    (∀ token ∈ node.flatten, Spells token.raw.toList token.lexeme) → node.KeepsReturns := by
  -- An atom keeps what its spelling does, and a list what its children do by induction.
  induction owns with
  | @atom value token means =>
    intro spelled
    have spells := spelled token List.mem_cons_self
    rw [means] at spells
    have raw : rawReturns (Node.atom value [token]).flatten = returns token.raw.toList := by
      simp [rawReturns, flatten]
    obtain ⟨atMost, written⟩ := spells.returns_le
    exact ⟨raw ▸ atMost, fun enough => .atom (written (raw ▸ enough))⟩
  | @list children opened closed opens closes _ ih =>
    intro spelled
    have inner := returns_spaced fun child member => ih child member fun token among =>
      spelled token (mem_flatten_list member among)
    -- Neither parenthesis is a carriage return, in the text and in the source text.
    have text := returns_list children [opened, closed]
    have ends : returns opened.raw.toList = 0 ∧ returns closed.raw.toList = 0 := by
      have opening := spelled opened (by simp [flatten])
      have closing := spelled closed (by simp [flatten])
      rw [opens] at opening
      rw [closes] at closing
      generalize opened.raw.toList = first at opening ⊢
      generalize closed.raw.toList = last at closing ⊢
      cases opening
      cases closing
      exact ⟨rfl, rfl⟩
    have raw : rawReturns (Node.list children [opened, closed]).flatten =
        rawReturns (flattenAll children) := by
      simp [rawReturns, flatten, ends]
    rw [← text, ← raw] at inner
    exact ⟨inner.1, fun enough => .list (inner.2 enough)⟩

/-- What is read from a text holds at most the carriage returns of the text. -/
theorem Reads.rawReturns_le {place final : Location} {text rest : List Char} {tokens : List Token}
    (read : Reads place text tokens final rest) : rawReturns tokens ≤ returns text := by
  -- The induction is on the reading, which passes blanks and takes source texts.
  induction read with
  | done => simp [rawReturns]
  | blank _ _ ih => exact Nat.le_trans ih List.count_le_count_cons
  | token _ _ _ ih => simpa [rawReturns] using ih

/-- A node is written if another one that agrees with it is. -/
theorem Node.Written.of_agrees {node other : Node} (agree : node.agrees other = true) :
    node.Written → other.Written := by
  -- The induction is on the agreement, which leaves all but numbers as they are.
  refine agrees_ind (motive := fun node other => node.Written → other.Written) ?_ ?_ ?_
    node other agree
  · intro value other tokens others agree written
    cases written with
    | atom written =>
      cases written with
      | number finite => exact .atom (.number (Binary64.isFinite_of_agrees agree finite))
  · intro value tokens others written
    cases written with
    | atom written => exact .atom written
  · intro children others tokens otherTokens same written
    cases written with
    | list all =>
      -- Each of the children is written, and the others follow one by one.
      apply Written.list
      clear agree
      induction same with
      | nil => simp
      | cons first _ ih =>
        obtain ⟨writtenFirst, writtenMore⟩ := List.forall_mem_cons.mp all
        exact List.forall_mem_cons.mpr ⟨first writtenFirst, ih writtenMore⟩

/-- A node is read back from its text, alone and comments included, exactly if all its payloads are
written: names that are names, closed contents of strings, comments within a line that do not end with
a carriage return, and finite numbers. -/
theorem parseText_text_iff (node : Node) (path : Option Path) :
    (∃ again, parseText node.text path false = .ok [again] ∧ again.agrees node = true) ↔
      node.Written := by
  -- What is written reads back. For the converse the carriage returns are counted, in the text and in what was
  -- read from it.
  constructor
  · intro back
    obtain ⟨again, read, agree⟩ := back
    obtain ⟨_, final, owns, reads, rfl⟩ := parseText_eq_ok_iff.mp read
    -- The text has no carriage return that is not in what was read, so none was dropped.
    have keeps := Node.keepsReturns (owns again List.mem_cons_self) (reads.spelled_of_mem List.mem_cons_self)
    have all := reads.rawReturns_le
    rw [← Node.text_of_agrees agree] at all
    exact (keeps.written (by simpa [flattenAll] using all)).of_agrees agree
  · intro written
    have each : ∀ other ∈ [node], other.Written := by simpa using written
    obtain ⟨again, read, echoes⟩ := parseText_of_written each path
    cases echoes with
    | cons first more =>
      cases more
      exact ⟨_, read, first.agrees⟩

end Sexpr
