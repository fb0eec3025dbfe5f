import Sexpr.Proofs.InTurn
import Sexpr.Proofs.Node.Relocation
import Sexpr.Proofs.RoundTrip

/-! The file of a text: all that is read from the text carries it, errors included, and it shows nowhere but
in positions. -/

namespace Sexpr

/-- A node all of whose positions, at any depth, are in one file. -/
inductive Node.InFile (path : Option Path) : Node → Prop
  | atom {value : Atom} {token : Token} (own : token.location.path = path) :
      Node.InFile path (.atom value [token])
  | list {children : List Node} {opened closed : Token} (opens : opened.location.path = path)
      (closes : closed.location.path = path) (all : ∀ child ∈ children, child.InFile path) :
      Node.InFile path (.list children [opened, closed])

/-- A cursor all of whose positions are in one file. -/
structure Cursor.InFile (path : Option Path) (cursor : Cursor) : Prop where
  anchor : cursor.anchor.path = path
  nodes : ∀ node ∈ cursor.nodes, node.InFile path

namespace Node

variable {path : Option Path} {node : Node}

/-- The position of a node is in its file. -/
theorem InFile.location (inFile : node.InFile path) : node.location.path = path := by
  -- A node is located by its first token.
  cases inFile with
  | atom own => exact own
  | list opens closes all => exact opens

/-- A node is in a file if all its tokens are. -/
theorem Owns.inFile (owns : node.Owns) :
    (∀ token ∈ node.flatten, token.location.path = path) → node.InFile path := by
  -- A node is in the file where its tokens are, and by induction so are its children.
  induction owns with
  | atom means =>
    intro own
    exact .atom (own _ List.mem_cons_self)
  | list _ _ _ ih =>
    intro own
    refine .list (own _ (by simp [flatten])) (own _ (by simp [flatten])) fun child member => ?_
    exact ih child member fun token among => own token (mem_flatten_list member among)

/-- What is left of a node without its comments is in the file of the node. -/
theorem InFile.withoutComments (inFile : node.InFile path) :
    ∀ kept, node.withoutComments = some kept → kept.InFile path := by
  -- The induction is on the node in the file, of which some children are left.
  induction inFile with
  | atom own =>
    intro kept left
    rw [withoutComments_atom] at left
    split at left
    · cases left
    · cases left
      exact .atom own
  | list opens closes _ ih =>
    intro kept left
    rw [Node.withoutComments] at left
    cases left
    refine .list opens closes fun child member => ?_
    obtain ⟨inner, inside, left⟩ := mem_stripComments.mp member
    exact ih inner inside child left

end Node

variable {text : String} {path : Option Path} {ignoreComments : Bool}

/-- All that is read from a text is in its file. -/
theorem inFile_of_parseText {nodes : List Node}
    (read : parseText text path ignoreComments = .ok nodes) : ∀ node ∈ nodes, node.InFile path := by
  -- The forest owns tokens of the text, and stripping leaves some of its nodes.
  obtain ⟨forest, final, owns, reads, rfl⟩ := parseText_eq_ok_iff.mp read
  -- Putting the tokens in the file of the text makes no difference, so they are there already.
  have found := tokenize_eq_ok_iff.mpr ⟨final, reads⟩
  have same := tokenize_withPath (String.ofList text.toList) path path
  rw [String.ofList_toList, found] at same
  have inFile : ∀ node ∈ forest, node.InFile path := by
    intro node member
    refine (owns node member).inFile fun token among => ?_
    have all := mem_flattenAll.mpr ⟨node, member, among⟩
    rw [Except.ok.inj same] at all
    obtain ⟨other, -, rfl⟩ := List.mem_map.mp all
    rfl
  cases ignoreComments with
  | false => exact inFile
  | true =>
    intro kept member
    obtain ⟨node, inside, left⟩ := mem_stripComments.mp member
    exact (inFile node inside).withoutComments kept left

/-- The file of a text shows in the positions of its forest, or of its error, and nowhere else. -/
theorem parseText_withPath (text : String) (path other : Option Path) (ignoreComments : Bool) :
    parseText text other ignoreComments =
      ((parseText text path ignoreComments).map
        (List.map (Node.relocate (Location.withPath · other)))).mapError
          (Error.relocate (Location.withPath · other)) := by
  -- First the tokens are moved, then the forest that they make up, and then what is left of it.
  simp only [parseText, tokenize_withPath text path other]
  cases tokenize text path with
  | error error => rfl
  | ok tokens =>
    have moved := parse_relocate (Location.withPath · other) tokens
    change (parse (tokens.map (Token.relocate (Location.withPath · other))) >>= _) = _
    rw [moved]
    cases parsed : parse tokens with
    | error error => simp [parsed, Except.map, Except.mapError, Bind.bind, Except.bind]
    | ok forest =>
      cases ignoreComments with
      | false => simp [parsed, Except.map, Except.mapError, Bind.bind, Except.bind, Pure.pure, Except.pure]
      | true =>
        simp [parsed, Except.map, Except.mapError, Bind.bind, Except.bind, Pure.pure, Except.pure,
          stripComments_relocate]

/-- An error in a text is in its file. -/
theorem path_of_parseText_error {error : Error}
    (failed : parseText text path ignoreComments = .error error) : error.location.path = path := by
  -- The text under its own path fails with the same error, and that has been put in the file.
  have same := parseText_withPath text path path ignoreComments
  rw [failed] at same
  rw [Except.error.inj same]
  rfl

/-- A list at the top of a text is in the file that it is in as a node. -/
theorem inFile_of_topList {node : Node} {cursor : Cursor} (inFile : node.InFile path)
    (opened : topList node = .ok cursor) : cursor.InFile path := by
  -- Only a list is opened, and its cursor stands at the list and over the children.
  cases inFile with
  | @atom value token own => cases value <;> cases opened
  | list opens closes all =>
    cases opened
    exact ⟨opens, all⟩

/-- The lists of a text are in its file. -/
theorem inFile_of_parseLists {cursors : List Cursor} (read : parseLists text path = .ok cursors) :
    ∀ cursor ∈ cursors, cursor.InFile path := by
  -- The text parses, and each cursor was opened on one of its nodes.
  cases parsed : parseText text path with
  | error error => simp [parseLists, parsed, Bind.bind, Except.bind] at read
  | ok nodes =>
    simp only [parseLists, parsed, Bind.bind, Except.bind] at read
    intro cursor member
    obtain ⟨node, among, opened⟩ := exists_of_mem_mapM read cursor member
    exact inFile_of_topList (inFile_of_parseText parsed node among) opened

end Sexpr
