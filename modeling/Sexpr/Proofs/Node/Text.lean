import Sexpr.Proofs.Node.Agreement
import Sexpr.Proofs.Node.Flatten
import Sexpr.Proofs.Token.Reads

/-! The text of a node reads back: as tokens of a node that agrees with it and has its text, but for a
carriage return at the end of a comment. -/

namespace Sexpr

/-- An atom whose own text can be read back: its payload is one that some source text has. -/
inductive Atom.Written : Atom → Prop
  | bool (value : Bool) : Atom.Written (.bool value)
  | number {value : Binary64} (finite : value.isFinite = true) : Atom.Written (.number value)
  | string {contents : String} (complete : StringBody contents.toList) :
      Atom.Written (.string contents)
  | identifier {name : String} (isName : IsName name.toList) : Atom.Written (.identifier name)
  | comment {contents : String} (inLine : '\n' ∉ contents.toList)
      (noReturn : contents.toList.getLast? ≠ some '\r') : Atom.Written (.comment contents)

/-- A node whose atoms are written, at any depth. -/
inductive Node.Written : Node → Prop
  | atom {value : Atom} {tokens : List Token} (written : value.Written) :
      Node.Written (.atom value tokens)
  | list {children : List Node} {tokens : List Token} (all : ∀ child ∈ children, child.Written) :
      Node.Written (.list children tokens)

/-- An atom whose own text can be read, though a comment may be read without the end of its line. -/
inductive Atom.Legible : Atom → Prop
  | comment {contents : String} (inLine : '\n' ∉ contents.toList) : Atom.Legible (.comment contents)
  | other {value : Atom} (written : value.Written) (notComment : value.tokenKind ≠ .comment) :
      Atom.Legible value

/-- A node whose atoms are legible, at any depth. -/
inductive Node.Legible : Node → Prop
  | atom {value : Atom} {tokens : List Token} (legible : value.Legible) :
      Node.Legible (.atom value tokens)
  | list {children : List Node} {tokens : List Token} (all : ∀ child ∈ children, child.Legible) :
      Node.Legible (.list children tokens)

/-- An atom as its line is read: a comment has lost one carriage return at its end, if it had any. -/
def Atom.trimmed : Atom → Atom
  | .comment contents => .comment (String.ofList (dropReturn contents.toList))
  | value => value

mutual

/-- A node whose comments have all been trimmed. -/
def Node.trimmed : Node → Node
  | .atom value tokens => .atom value.trimmed tokens
  | .list children tokens => .list (trimmedAll children) tokens

/-- A row of nodes whose comments have all been trimmed. -/
def trimmedAll : List Node → List Node
  | [] => []
  | node :: nodes => node.trimmed :: trimmedAll nodes

end

/-- The atom that the text of an atom reads back as: zero has lost its sign. -/
def Atom.readBack : Atom → Atom
  | .number value => .number value.dropZeroSign
  | value => value

/-- A node as it is read again: it owns its tokens, and nothing but tokens and the sign of zero tells it
from the node that was written. -/
structure Node.Echoes (again node : Node) : Prop where
  owns : again.Owns
  agrees : again.agrees node = true
  text : again.text = node.text
  bare : node.Bare → again.Bare

/-- A node whose text reads as another node, wherever it stands and whatever follows where an atom may
end. -/
def Node.ReadsAs (node other : Node) : Prop :=
  ∀ (place : Location) (tail : List Char), endsAtom tail.head? = true →
    ∃ (again : Node) (final : Location), again.Echoes other ∧
      Reads place (node.text.toList ++ tail) again.flatten final tail

namespace Atom

/-- An atom that is spelled, other than a comment, is written. -/
theorem written_of_spells {raw : List Char} {value : Atom} (spelled : Spells raw (.atom value))
    (notComment : value.tokenKind ≠ .comment) : value.Written := by
  -- Every clause of the grammar brings the condition on its own payload.
  cases spelled with
  | comment inLine => exact absurd rfl notComment
  | string complete => exact .string (by simpa using complete)
  | number literal denotes =>
    cases denotes
    exact .number rfl
  | bool value => exact .bool value
  | identifier name => exact .identifier (by simpa using name)

/-- The text of a written atom other than a comment spells the atom that it reads back as. -/
theorem Written.spells {value : Atom} (written : value.Written)
    (notComment : value.tokenKind ≠ .comment) : Spells value.text.toList (.atom value.readBack) := by
  -- The case is the variant of the atom, each of which has a spelling of its own.
  cases written with
  | bool value =>
    cases value with
    | false => exact Spells.bool false
    | true => exact Spells.bool true
  | number finite =>
    -- The digits of a finite number are a literal that denotes it.
    obtain ⟨literal, chars, denotes⟩ := Binary64.toChars_denotes finite
    have spelled := Spells.number literal denotes
    rw [chars] at spelled
    simpa [text, Binary64.text, readBack] using spelled
  | string complete =>
    have spelled := Spells.string complete
    simpa [text, readBack] using spelled
  | identifier isName =>
    have spelled := Spells.identifier isName
    simpa [text, readBack] using spelled
  | comment inLine noReturn => exact absurd rfl notComment

/-- What an atom reads back as has its class. -/
theorem tokenKind_readBack (value : Atom) : value.readBack.tokenKind = value.tokenKind := by
  -- Reading back changes the sign of a zero at most.
  cases value <;> rfl

/-- What an atom reads back as has its text. -/
theorem text_readBack (value : Atom) : value.readBack.text = value.text := by
  -- Reading back changes the sign of a zero at most, and that is not written.
  cases value with
  | number value => exact value.text_dropZeroSign
  | bool => rfl
  | string => rfl
  | identifier => rfl
  | comment => rfl

/-- What a written atom reads back as agrees with it. -/
theorem Written.agrees {value : Atom} (written : value.Written) (tokens others : List Token) :
    (Node.atom value.readBack tokens).agrees (.atom value others) = true := by
  -- Reading back changes the sign of a zero at most, and numbers are compared without it.
  cases written with
  | number finite => exact Binary64.agrees_dropZeroSign finite
  | bool value => simp [readBack, Node.agrees]
  | string complete => simp [readBack, Node.agrees]
  | identifier isName => simp [readBack, Node.agrees]
  | comment inLine noReturn => simp [readBack, Node.agrees]

/-- Only a comment can be trimmed. -/
theorem trimmed_of_ne {value : Atom} (notComment : value.tokenKind ≠ .comment) :
    value.trimmed = value := by
  -- Trimming is for comments alone.
  cases value with
  | comment => exact absurd rfl notComment
  | bool => rfl
  | number => rfl
  | string => rfl
  | identifier => rfl

/-- A written atom is legible. -/
theorem Written.legible {value : Atom} (written : value.Written) : value.Legible := by
  -- Comments have a clause of their own, which asks for less.
  by_cases comment : value.tokenKind = .comment
  · cases written with
    | comment inLine noReturn => exact .comment inLine
    | bool => cases comment
    | number => cases comment
    | string => cases comment
    | identifier => cases comment
  · exact .other written comment

/-- A written atom has been trimmed. -/
theorem Written.trimmed {value : Atom} (written : value.Written) : value.trimmed = value := by
  -- Only a comment that ends with a carriage return is trimmed, and none such is written.
  cases written with
  | comment inLine noReturn => rw [Atom.trimmed, dropReturn, if_neg noReturn, String.ofList_toList]
  | bool => rfl
  | number => rfl
  | string => rfl
  | identifier => rfl

/-- An atom that is spelled is legible. -/
theorem legible_of_spells {raw : List Char} {value : Atom} (spelled : Spells raw (.atom value)) :
    value.Legible := by
  -- Comments have a clause of their own, and all other atoms are written as they are spelled.
  by_cases comment : value.tokenKind = .comment
  · cases spelled with
    | @comment line inLine =>
      -- What is left of a line is within the line.
      have part : dropReturn line ⊆ line := by
        rw [dropReturn]
        split
        · exact List.dropLast_subset line
        · exact List.Subset.refl line
      exact .comment (by simpa using fun member => inLine (part member))
    | string => cases comment
    | number => cases comment
    | bool => cases comment
    | identifier => cases comment
  · exact .other (written_of_spells spelled comment) comment

/-- A legible atom agrees with itself, as it is no number that differs from itself. -/
theorem Legible.agrees_self {value : Atom} (legible : value.Legible) (tokens others : List Token) :
    (Node.atom value tokens).agrees (.atom value others) = true := by
  -- Only not-a-number differs from itself, and no token is one.
  cases legible with
  | comment inLine => simp [Node.agrees]
  | other written notComment =>
    cases written with
    | @number value finite =>
      cases value with
      | finite negative rank inRange => simp [Node.agrees, Binary64.agrees]
      | infinity negative => cases finite
      | nan negative payload inRange => cases finite
    | bool value => simp [Node.agrees]
    | string complete => simp [Node.agrees]
    | identifier isName => simp [Node.agrees]
    | comment inLine noReturn => exact absurd rfl notComment

/-- What a legible atom reads back as agrees with it, trimmed. -/
theorem Legible.agrees {value : Atom} (legible : value.Legible) (tokens others : List Token) :
    (Node.atom value.trimmed.readBack tokens).agrees (.atom value.trimmed others) = true := by
  -- A comment is compared as it was trimmed, and any other atom is not trimmed at all.
  cases legible with
  | comment inLine => simp [trimmed, readBack, Node.agrees]
  | other written notComment =>
    rw [trimmed_of_ne notComment]
    exact written.agrees tokens others

/-- The text of a legible atom reads as one token, that of the trimmed atom. -/
theorem Legible.reads {value : Atom} (legible : value.Legible) (place : Location) {tail : List Char}
    (ends : endsAtom tail.head? = true) : ∃ (token : Token) (final : Location),
      token.lexeme = .atom value.trimmed.readBack ∧
      Reads place (value.text.toList ++ tail) [token] final tail := by
  -- A comment brings its line feed with it, and any other atom ends at what follows.
  cases legible with
  | @comment contents inLine =>
    -- The text of a comment brings the line feed that ends it, and that is a blank behind the token.
    have spelled := Spells.comment inLine
    have fed : Lexeme.Ends (.atom (.comment (String.ofList (dropReturn contents.toList))))
        ('\n' :: tail) := Lexeme.ends_of_comment rfl (Or.inr rfl)
    have read := (Reads.single spelled fed place).append (.blank rfl .done)
    have whole : (';' :: contents.toList) ++ '\n' :: tail =
        (Atom.comment contents).text.toList ++ tail := by simp [text]
    exact ⟨_, _, rfl, whole ▸ read⟩
  | other written notComment =>
    rw [trimmed_of_ne notComment]
    have ends : Lexeme.Ends (.atom value.readBack) tail := by
      refine ⟨fun _ => ends, fun same => ?_⟩
      exact absurd (value.tokenKind_readBack.symm.trans same) notComment
    exact ⟨_, _, rfl, Reads.single (written.spells notComment) ends place⟩

end Atom

namespace Node

variable {nodes again : List Node}

/-- What is read again owns its tokens. -/
theorem owns_of_echoes (echoes : List.Forall₂ Echoes again nodes) : ∀ node ∈ again, node.Owns := by
  -- Each echo owns its tokens.
  induction echoes with
  | nil => simp
  | cons first _ ih => simpa using ⟨first.owns, ih⟩

/-- What is read again agrees with what was written, node by node. -/
theorem allAgree_of_echoes (echoes : List.Forall₂ Echoes again nodes) :
    allAgree again nodes = true :=
  allAgree_iff_forall₂.mpr (echoes.imp fun _ _ echo => echo.agrees)

/-- What is read again has the text that was written. -/
theorem spaced_of_echoes (echoes : List.Forall₂ Echoes again nodes) :
    spaced again = spaced nodes :=
  spaced_congr (echoes.imp fun _ _ echo => echo.text)

/-- What is read again is bare if all that was written is. -/
theorem bare_of_echoes (echoes : List.Forall₂ Echoes again nodes)
    (bare : ∀ node ∈ nodes, node.Bare) : ∀ node ∈ again, node.Bare := by
  -- Each echo is bare as the node is that it echoes.
  induction echoes with
  | nil => simp
  | cons first _ ih =>
    obtain ⟨bareFirst, bareOthers⟩ := List.forall_mem_cons.mp bare
    exact List.forall_mem_cons.mpr ⟨first.bare bareFirst, ih bareOthers⟩

/-- A row of nodes is trimmed node by node. -/
theorem trimmedAll_eq_map (nodes : List Node) : trimmedAll nodes = nodes.map trimmed := by
  induction nodes with
  | nil => rfl
  | cons node nodes ih => rw [trimmedAll, ih, List.map_cons]

/-- The text of a row of nodes reads as another row if the text of each of them reads as one of its nodes. -/
theorem readsAs_spaced {nodes others : List Node} (each : List.Forall₂ ReadsAs nodes others) :
    ∀ (place : Location) (tail : List Char), endsAtom tail.head? = true →
      ∃ (again : List Node) (final : Location), List.Forall₂ Echoes again others ∧
        Reads place ((spaced nodes).toList ++ tail) (flattenAll again) final tail := by
  -- The induction is on the row, with the place and the tail left open.
  induction each with
  | nil =>
    intro place tail _
    exact ⟨[], place, .nil, .done⟩
  | @cons node other nodes others readsFirst more ih =>
    intro place tail ends
    cases nodes with
    | nil =>
      -- The last text stands right before the tail.
      cases more
      obtain ⟨again, final, echoes, read⟩ := readsFirst place tail ends
      refine ⟨[again], final, .cons echoes .nil, ?_⟩
      simpa [spaced, flattenAll] using read
    | cons second nodes =>
      -- Every other text ends at the space behind it, and the row goes on behind that.
      obtain ⟨again, middle, echoes, read⟩ :=
        readsFirst place (' ' :: ((spaced (second :: nodes)).toList ++ tail)) rfl
      obtain ⟨behind, final, echoesAll, readAll⟩ := ih (middle.advance ' ') tail ends
      have whole := read.append (.blank rfl readAll)
      refine ⟨again :: behind, final, .cons echoes echoesAll, ?_⟩
      simpa [flattenAll] using whole

/-- The text of a legible node reads as the node, trimmed. -/
theorem Legible.readsAs {node : Node} (legible : node.Legible) : node.ReadsAs node.trimmed := by
  -- The induction is on the node. A list is read as its two ends, with the row of its children between them.
  induction legible with
  | @atom value tokens legible =>
    intro place tail ends
    obtain ⟨token, final, means, read⟩ := legible.reads place ends
    have echoes : (Node.atom value.trimmed.readBack [token]).Echoes (.atom value.trimmed tokens) := by
      refine ⟨.atom means, legible.agrees [token] tokens, value.trimmed.text_readBack, ?_⟩
      intro bare
      cases bare with
      | atom notComment => exact .atom (value.trimmed.tokenKind_readBack ▸ notComment)
    exact ⟨_, final, echoes, read⟩
  | @list children tokens _ ih =>
    rw [Node.trimmed, trimmedAll_eq_map]
    intro place tail ends
    -- Both parentheses end whatever stands before them, so the children are read between them.
    have each : List.Forall₂ ReadsAs children (children.map Node.trimmed) := by
      rw [List.forall₂_map_right_iff, List.forall₂_same]
      exact ih
    obtain ⟨again, final, echoesAll, read⟩ :=
      readsAs_spaced each (place.advanceOver ['(']) (')' :: tail) rfl
    let opened : Token := { lexeme := .listOpen, raw := String.ofList ['('], location := place }
    let closed : Token := { lexeme := .listClose, raw := String.ofList [')'], location := final }
    have opening := Reads.single .listOpen
      (Lexeme.ends_of_apart rfl (by decide) ((spaced children).toList ++ ')' :: tail)) place
    have closing := Reads.single .listClose (Lexeme.ends_of_apart rfl (by decide) tail) final
    have echoes : (Node.list again [opened, closed]).Echoes
        (.list (children.map Node.trimmed) tokens) := by
      refine ⟨.list rfl rfl (owns_of_echoes echoesAll), ?_, ?_, ?_⟩
      · rw [Node.agrees, allAgree_of_echoes echoesAll]
      · rw [Node.text, Node.text, spaced_of_echoes echoesAll]
      · intro bare
        cases bare with
        | list all => exact .list (bare_of_echoes echoesAll all)
    have whole := (opening.append read).append closing
    refine ⟨_, final.advanceOver [')'], echoes, ?_⟩
    simpa [Node.text, Node.flatten] using whole

/-- A written node is legible. -/
theorem Written.legible {node : Node} (written : node.Written) : node.Legible := by
  -- Every atom in the node is written, and so is legible.
  induction written with
  | atom written => exact .atom written.legible
  | list _ ih => exact .list ih

/-- A written node has been trimmed. -/
theorem Written.trimmed {node : Node} (written : node.Written) : node.trimmed = node := by
  -- The induction is on the node, none of whose comments is trimmed.
  induction written with
  | atom written => rw [Node.trimmed, written.trimmed]
  | list _ ih => rw [Node.trimmed, trimmedAll_eq_map, List.map_congr_left ih, List.map_id']

end Node

end Sexpr
