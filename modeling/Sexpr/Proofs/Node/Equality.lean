import Sexpr.Datum
import Sexpr.Proofs.Cursor.Answers
import Sexpr.Proofs.Node.Spans
import Sexpr.Proofs.Number.Shortest

/-! Equality of nodes: those agree that are alike variant by variant and payload by payload, whichever of the two
is asked, and on nodes that were read this is as fine as their texts. -/

namespace Sexpr

namespace Binary64

/-- Whether a number is not-a-number. -/
def isNan : Binary64 → Bool
  | .nan .. => true
  | _ => false

/-- Two numbers with the same value: the same infinity, or finite ones that count as many of the finest steps. So
both zeros have the same value. -/
inductive SameValue : Binary64 → Binary64 → Prop
  | infinity (negative : Bool) : SameValue (.infinity negative) (.infinity negative)
  | finite {value other : Binary64} (finite : value.isFinite = true) (otherFinite : other.isFinite = true)
      (same : value.scaled = other.scaled) : SameValue value other

/-- Numbers agree exactly if they have the same value. -/
theorem agrees_iff_sameValue {value other : Binary64} :
    value.agrees other = true ↔ value.SameValue other := by
  constructor
  · intro agree
    rcases agrees_cases agree with ⟨negative, rfl, rfl⟩ | ⟨negative, _, rank, inRange, rfl, rfl, sign⟩
    · exact .infinity negative
    · -- Equal ranks have equal magnitudes, and that of the least rank is zero.
      exact .finite rfl rfl (signed_eq_iff.mpr ⟨rfl, sign.imp id units_eq_zero.mpr⟩)
  · intro same
    cases same with
    | infinity negative => simp [agrees]
    | finite finite otherFinite same =>
      obtain ⟨negative, rank, inRange, rfl⟩ := exists_finite finite
      obtain ⟨otherNegative, otherRank, otherInRange, rfl⟩ := exists_finite otherFinite
      -- Distinct ranks have distinct magnitudes.
      obtain ⟨magnitude, sign⟩ := signed_eq_iff.mp same
      obtain rfl := units_strictMono.injective magnitude
      simpa [agrees] using sign.imp id units_eq_zero.mp

/-- A number other than not-a-number has the same value as itself. -/
theorem SameValue.refl {value : Binary64} (proper : value.isNan = false) : value.SameValue value := by
  -- Only not-a-number differs from itself.
  cases value with
  | nan => cases proper
  | infinity negative => exact .infinity negative
  | finite => exact .finite rfl rfl rfl

theorem SameValue.symm {value other : Binary64} (same : value.SameValue other) : other.SameValue value := by
  -- Both clauses are symmetric.
  cases same with
  | infinity negative => exact .infinity negative
  | finite finite otherFinite same => exact .finite otherFinite finite same.symm

theorem SameValue.trans {value other third : Binary64} (same : value.SameValue other)
    (more : other.SameValue third) : value.SameValue third := by
  -- The middle number is finite or infinite, and so both clauses are the same.
  cases same with
  | infinity negative => exact more
  | finite finite otherFinite same =>
    cases more with
    | infinity negative => cases otherFinite
    | finite _ thirdFinite more => exact .finite finite thirdFinite (same.trans more)

end Binary64

/-- Two atoms of the same variant with the same payload. -/
inductive Atom.Alike : Atom → Atom → Prop
  | bool (value : Bool) : Atom.Alike (.bool value) (.bool value)
  | number {value other : Binary64} (same : value.SameValue other) :
      Atom.Alike (.number value) (.number other)
  | string (contents : String) : Atom.Alike (.string contents) (.string contents)
  | identifier (name : String) : Atom.Alike (.identifier name) (.identifier name)
  | comment (contents : String) : Atom.Alike (.comment contents) (.comment contents)

/-- Two nodes of the same variant with the same payload, whatever tokens they keep. Lists have equally many
children, which are alike in order. -/
inductive Node.Alike : Node → Node → Prop
  | atom {value other : Atom} {tokens others : List Token} (alike : value.Alike other) :
      Node.Alike (.atom value tokens) (.atom other others)
  | list {children others : List Node} {tokens otherTokens : List Token}
      (many : children.length = others.length)
      (each : ∀ pair ∈ children.zip others, Node.Alike pair.1 pair.2) :
      Node.Alike (.list children tokens) (.list others otherTokens)

/-- A node all of whose numbers, at any depth, have a property. -/
inductive Node.NumbersHave (holds : Binary64 → Prop) : Node → Prop
  | atom {value : Atom} {tokens : List Token} (each : ∀ number ∈ value.number?, holds number) :
      Node.NumbersHave holds (.atom value tokens)
  | list {children : List Node} {tokens : List Token}
      (all : ∀ child ∈ children, child.NumbersHave holds) : Node.NumbersHave holds (.list children tokens)

/-- A node without not-a-number in it. -/
def Node.Proper : Node → Prop := Node.NumbersHave fun number => number.isNan = false

/-- What a node is compared by beside its variant and its children. -/
def Node.payload : Node → Datum
  | .atom value tokens => (Node.atom value tokens).toDatum
  | .list .. => .nothing

mutual

/-- Whether a node counts another one as equal when it is asked, where `identical` tells whether two nodes are
one and the same.

An atom looks at the variant of the other node and then at its payload, where a truth value equals a number. A
list looks whether the other node is one too, and then goes through both rows of children. -/
def Node.equals (identical : Node → Node → Bool) : Node → Node → Bool
  | .atom value tokens, other =>
    other.kind == value.nodeKind && other.payload.sameKey (Node.atom value tokens).payload
  | .list children _, other => other.is .list && Node.rowEquals identical children (other.children?.getD [])

/-- Whether the nodes of one row count those of another as equal. Nothing is asked of a node that is
identical. -/
def Node.rowEquals (identical : Node → Node → Bool) : List Node → List Node → Bool
  | [], [] => true
  | node :: nodes, other :: others =>
    (identical node other || node.equals identical other) && Node.rowEquals identical nodes others
  | _, _ => false

end

/-- Rows that are related one by one, the first to the second and that to a third. -/
theorem forall₂_through {α β γ : Type} {first : α → β → Prop} {second : β → γ → Prop} {both : α → γ → Prop}
    (join : ∀ value other third, first value other → second other third → both value third)
    {values : List α} {others : List β} {thirds : List γ} (related : List.Forall₂ first values others)
    (more : List.Forall₂ second others thirds) : List.Forall₂ both values thirds := by
  -- The induction is on the first relation, and the second one is taken apart along with it.
  induction related generalizing thirds with
  | nil =>
    cases more
    exact .nil
  | cons head _ ih =>
    cases more with
    | cons next more => exact .cons (join _ _ _ head next) (ih more)

namespace Atom

variable {value other : Atom}

/-- Atoms agree exactly if they are alike. -/
theorem agrees_iff_alike (tokens others : List Token) :
    (Node.atom value tokens).agrees (.atom other others) = true ↔ value.Alike other := by
  -- Only the payload counts, so the tokens are not looked at.
  constructor
  · intro agree
    rcases Node.agrees_atom agree with ⟨number, same, rfl, rfl, agree⟩ | rfl
    · exact .number (Binary64.agrees_iff_sameValue.mp agree)
    · -- The same atom has the same payload, and a number agrees with itself by hypothesis.
      cases value with
      | bool value => exact .bool value
      | number value => exact .number (Binary64.agrees_iff_sameValue.mp agree)
      | string contents => exact .string contents
      | identifier name => exact .identifier name
      | comment contents => exact .comment contents
  · intro alike
    cases alike with
    | number same => exact Binary64.agrees_iff_sameValue.mpr same
    | bool => simp [Node.agrees]
    | string => simp [Node.agrees]
    | identifier => simp [Node.agrees]
    | comment => simp [Node.agrees]

/-- An atom other than not-a-number is like itself. -/
theorem Alike.refl (proper : ∀ number ∈ value.number?, number.isNan = false) : value.Alike value := by
  -- Each variant has its own clause, and the hypothesis is about numbers only.
  cases value with
  | number value => exact .number (.refl (proper value rfl))
  | bool value => exact .bool value
  | string contents => exact .string contents
  | identifier name => exact .identifier name
  | comment contents => exact .comment contents

theorem Alike.symm (alike : value.Alike other) : other.Alike value := by
  -- Each variant has its own clause, and only numbers are not simply equal.
  cases alike with
  | number same => exact .number same.symm
  | bool value => exact .bool value
  | string contents => exact .string contents
  | identifier name => exact .identifier name
  | comment contents => exact .comment contents

theorem Alike.trans {third : Atom} (alike : value.Alike other) (more : other.Alike third) :
    value.Alike third := by
  -- Each variant has its own clause, and only numbers are not simply equal.
  cases alike with
  | number same =>
    cases more with
    | number more => exact .number (same.trans more)
  | bool => exact more
  | string => exact more
  | identifier => exact more
  | comment => exact more

end Atom

namespace Node

variable {node other third : Node}

/-- Lists are alike exactly if their children are, one by one. -/
theorem alike_list_iff {children others : List Node} {tokens otherTokens : List Token} :
    (list children tokens).Alike (list others otherTokens) ↔ List.Forall₂ Alike children others := by
  -- The clause for lists speaks of pairs at the same index, which is the relation between two rows.
  rw [List.forall₂_iff_zip]
  constructor
  · intro alike
    cases alike with
    | list many each => exact ⟨many, fun member => each _ member⟩
  · rintro ⟨many, each⟩
    exact .list many fun pair member => each member

/-- Nodes agree exactly if they are alike. -/
theorem agrees_iff_alike : node.agrees other = true ↔ node.Alike other := by
  -- The induction is on the first node, and the second is of either variant.
  induction node generalizing other with
  | atom value tokens =>
    cases other with
    | atom otherValue others =>
      rw [Atom.agrees_iff_alike]
      constructor
      · exact .atom
      · intro alike
        cases alike with
        | atom alike => exact alike
    | list others otherTokens =>
      -- An atom and a list are neither equal nor of the same variant.
      constructor
      · intro agree
        cases value <;> simp [agrees] at agree
      · intro alike
        cases alike
  | list children tokens ih =>
    cases other with
    | atom otherValue others =>
      constructor
      · intro agree
        simp [agrees] at agree
      · intro alike
        cases alike
    | list others otherTokens =>
      -- Child by child both sides say the same, by hypothesis.
      rw [agrees, allAgree_iff_forall₂, alike_list_iff]
      constructor
      · intro agree
        have each := (List.forall₂_and_left children others).mpr ⟨ih, agree⟩
        exact each.imp fun _ _ both => both.1.mp both.2
      · intro alike
        have each := (List.forall₂_and_left children others).mpr ⟨ih, alike⟩
        exact each.imp fun _ _ both => both.1.mpr both.2

/-- A node without not-a-number is like itself, whatever tokens it keeps. -/
theorem Alike.refl (proper : node.Proper) : node.Alike node := by
  -- The atoms that need not be like themselves are not there, by induction on the rest.
  induction proper with
  | atom each => exact .atom (.refl each)
  | list all ih => exact alike_list_iff.mpr (List.forall₂_same.mpr ih)

theorem Alike.symm (alike : node.Alike other) : other.Alike node := by
  -- The induction is on the likeness, which a list has child by child.
  induction alike with
  | atom alike => exact .atom alike.symm
  | list many each ih =>
    have flipped := List.forall₂_iff_zip.mpr ⟨many, fun member => ih _ member⟩
    exact alike_list_iff.mpr flipped.flip

theorem Alike.trans (alike : node.Alike other) (more : other.Alike third) : node.Alike third := by
  -- The induction is on the first likeness, and the second one is taken apart along with it.
  induction alike generalizing third with
  | atom alike =>
    cases more with
    | atom more => exact .atom (alike.trans more)
  | @list children others tokens otherTokens many each ih =>
    cases third with
    | atom => cases more
    | list thirds thirdTokens =>
      -- The hypothesis is about pairs of children, and goes along the two rows with them.
      have first := List.forall₂_iff_zip.mpr ⟨many, fun member => @ih _ member⟩
      exact alike_list_iff.mpr (forall₂_through (fun _ _ _ along next => along next) first (alike_list_iff.mp more))

/-- Nodes agree whichever of them comes first. -/
theorem agrees_comm (node other : Node) : node.agrees other = other.agrees node := by
  -- Agreement is likeness, and that is symmetric.
  rw [Bool.eq_iff_iff, agrees_iff_alike, agrees_iff_alike]
  exact ⟨Alike.symm, Alike.symm⟩

/-- An atom counts another one as equal exactly if they are alike: between payloads of different kinds, which
may be equal all the same, the variants have decided before. -/
theorem equals_atom_iff (identical : Node → Node → Bool) {value other : Atom} (tokens others : List Token) :
    (atom value tokens).equals identical (atom other others) = true ↔ value.Alike other := by
  -- The comparison asks for the same variant and an equal payload.
  rw [equals, Bool.and_eq_true, beq_iff_eq]
  constructor
  · rintro ⟨kind, payload⟩
    -- Of the same variant as a number is a number alone, and so for the others.
    cases value with
    | bool value =>
      obtain ⟨other, rfl⟩ := (Cursor.views_bool.kind_iff other).mp kind
      have same : other = value := by
        cases value <;> cases other <;> simp_all [Node.payload, toDatum, Datum.sameKey, Datum.isInteger]
      exact same ▸ .bool other
    | number value =>
      obtain ⟨other, rfl⟩ := (Cursor.views_number.kind_iff other).mp kind
      have agree : other.agrees value = true := by
        simpa [Node.payload, toDatum, Datum.sameKey, Datum.isNumber] using payload
      exact .number (Binary64.agrees_iff_sameValue.mp agree).symm
    | string contents =>
      obtain ⟨other, rfl⟩ := (Cursor.views_string.kind_iff other).mp kind
      obtain rfl : other = contents := by simpa [Node.payload, toDatum, Datum.sameKey] using payload
      exact .string other
    | identifier name =>
      obtain ⟨other, rfl⟩ := (Cursor.views_identifier.kind_iff other).mp kind
      obtain rfl : other = name := by simpa [Node.payload, toDatum, Datum.sameKey] using payload
      exact .identifier other
    | comment contents =>
      obtain ⟨other, rfl⟩ := (Cursor.views_comment.kind_iff other).mp kind
      obtain rfl : other = contents := by simpa [Node.payload, toDatum, Datum.sameKey] using payload
      exact .comment other
  · intro alike
    cases alike with
    | bool value => cases value <;> exact ⟨rfl, rfl⟩
    | number same => exact ⟨rfl, Binary64.agrees_iff_sameValue.mpr same.symm⟩
    | string contents => exact ⟨rfl, beq_self_eq_true contents⟩
    | identifier name => exact ⟨rfl, beq_self_eq_true name⟩
    | comment contents => exact ⟨rfl, beq_self_eq_true contents⟩

/-- A row of nodes counts another as equal exactly if they are alike one by one, if that is so of each of them
where an identical node is not asked. -/
theorem rowEquals_iff {identical : Node → Node → Bool} {nodes : List Node}
    (each : ∀ node ∈ nodes, ∀ other,
      (identical node other || node.equals identical other) = true ↔ node.Alike other) :
    ∀ others, rowEquals identical nodes others = true ↔ List.Forall₂ Alike nodes others := by
  -- The induction is on the first row, and rows of different lengths are unequal.
  induction nodes with
  | nil => intro others; cases others <;> simp [rowEquals]
  | cons node nodes ih =>
    intro others
    obtain ⟨first, more⟩ := List.forall_mem_cons.mp each
    cases others with
    | nil => simp [rowEquals]
    | cons other others => rw [rowEquals, Bool.and_eq_true, first, ih more, List.forall₂_cons]

/-- A node without not-a-number counts another one as equal exactly if they are alike. So it makes no difference
that a node which is identical is not asked. -/
theorem equals_iff_alike {identical : Node → Node → Bool}
    (sound : ∀ same again, identical same again = true → same = again) (proper : node.Proper) :
    node.equals identical other = true ↔ node.Alike other := by
  -- The induction is on what keeps not-a-number out of the node, with the other node left open.
  induction proper generalizing other with
  | @atom value tokens each =>
    cases other with
    | atom otherValue others =>
      rw [equals_atom_iff, ← Atom.agrees_iff_alike tokens others, agrees_iff_alike]
    | list others otherTokens =>
      constructor
      · intro equal
        cases value <;> simp [equals, kind, Atom.nodeKind] at equal
      · intro alike
        cases alike
  | @list children tokens all ih =>
    cases other with
    | atom otherValue others =>
      constructor
      · intro equal
        cases otherValue <;> simp [equals, is, kind, Atom.nodeKind] at equal
      · intro alike
        cases alike
    | list others otherTokens =>
      have rows := @rowEquals_iff identical children (fun child member other => by
        rw [Bool.or_eq_true, ih child member]
        -- Without not-a-number a node is like itself, so identity adds nothing.
        constructor
        · rintro (same | alike)
          · exact sound child other same ▸ Alike.refl (all child member)
          · exact alike
        · exact Or.inr) others
      rw [alike_list_iff, ← rows]
      rfl

/-- In a forest whose nodes are all written every node is, at any depth. -/
theorem Occurs.written {forest : List Node} (occurs : Occurs forest node)
    (written : ∀ node ∈ forest, node.Written) : node.Written := by
  -- The induction is on where the node occurs, from the top down.
  induction occurs with
  | top member => exact written _ member
  | child _ member ih =>
    cases ih with
    | list all => exact all _ member

/-- What is read is written, if no comments are left in it. -/
theorem written_of_bare {text : String} {path : Option Path} {ignoreComments : Bool} {nodes : List Node}
    (read : parseText text path ignoreComments = .ok nodes) (bare : ∀ node ∈ nodes, node.Bare) :
    ∀ node ∈ nodes, node.Written := by
  -- What a parse gives was written in the text, as its tokens were.
  obtain ⟨forest, final, owns, reads, rfl⟩ := parseText_eq_ok_iff.mp read
  intro kept member
  -- With comments ignored or not, a bare node is what is left of a node that was parsed.
  obtain ⟨source, inside, left⟩ : ∃ source ∈ forest, source.withoutComments = some kept := by
    have alone := (bare kept member).withoutComments
    split at member
    · exact mem_stripComments.mp member
    · exact ⟨kept, member, alone⟩
  exact written_of_withoutComments (owns source inside) (reads.spelled_of_mem inside) kept left

/-- Written nodes with the same text agree, as both agree with what that text is read as. -/
theorem agrees_of_text (written : node.Written) (otherWritten : other.Written)
    (same : node.text = other.text) : node.agrees other = true := by
  -- A node reads back from its text as a node like it, and the two texts are one.
  have readBack : ∀ node : Node, node.Written →
      ∃ again, parseText node.text none false = .ok [again] ∧ again.Alike node := by
    intro node written
    obtain ⟨_, read, echoes⟩ := @parseText_of_written [node] (by simpa using written) none
    cases echoes with
    | cons first more =>
      cases more
      exact ⟨_, read, agrees_iff_alike.mp first.agrees⟩
  obtain ⟨again, read, alike⟩ := readBack node written
  obtain ⟨otherAgain, otherRead, otherAlike⟩ := readBack other otherWritten
  -- The text is the same, so one node was read.
  rw [same, otherRead] at read
  obtain ⟨rfl, -⟩ := List.cons.inj (Except.ok.inj read)
  exact agrees_iff_alike.mpr (alike.symm.trans otherAlike)

/-- Equality of nodes is structural. Nodes without not-a-number agree exactly if they have the same variant and
payload, and lists if they have equally many children that agree in order; so whichever of them is asked, and
however it decides, the answer is the same, and agreement is an equivalence. Nodes that agree have the same text,
and nodes anywhere in what was read, if no comments are left in it, agree if they have the same text. -/
theorem agrees_structural :
    (∀ node other third : Node, node.Proper → other.Proper → third.Proper →
      (node.agrees other = true ↔ node.Alike other) ∧
      (∀ identical : Node → Node → Bool, (∀ same again, identical same again = true → same = again) →
        node.equals identical other = node.agrees other ∧ other.equals identical node = node.agrees other) ∧
      node.agrees node = true ∧
      (node.agrees other = true → other.agrees node = true) ∧
      (node.agrees other = true → other.agrees third = true → node.agrees third = true) ∧
      (node.agrees other = true → node.text = other.text)) ∧
    ∀ text otherText path otherPath ignoreComments othersIgnored nodes others node other,
      parseText text path ignoreComments = .ok nodes → (∀ node ∈ nodes, node.Bare) →
      parseText otherText otherPath othersIgnored = .ok others → (∀ other ∈ others, other.Bare) →
      Node.Occurs nodes node → Node.Occurs others other → node.text = other.text →
      node.agrees other = true := by
  -- Agreement is likeness, so the laws are those of likeness. The converse for texts reads both nodes back.
  constructor
  · intro node other third proper otherProper _
    refine ⟨agrees_iff_alike, ?_, agrees_iff_alike.mpr (.refl proper), ?_, ?_, text_of_agrees⟩
    · intro identical sound
      constructor
      · rw [Bool.eq_iff_iff, equals_iff_alike sound proper, agrees_iff_alike]
      · rw [agrees_comm, Bool.eq_iff_iff, equals_iff_alike sound otherProper, agrees_iff_alike]
    · intro agree
      exact agrees_iff_alike.mpr (agrees_iff_alike.mp agree).symm
    · intro agree more
      exact agrees_iff_alike.mpr ((agrees_iff_alike.mp agree).trans (agrees_iff_alike.mp more))
  · intro text otherText path otherPath ignoreComments othersIgnored nodes others node other
      read bare otherRead otherBare occurs otherOccurs same
    exact agrees_of_text (occurs.written (written_of_bare read bare))
      (otherOccurs.written (written_of_bare otherRead otherBare)) same

/-- Lists of the two zeros agree and have the same text, and so do two lists of a text that were read, one of them
with a comment in front of its end. -/
theorem agrees_structural_zeros :
    (∃ negative positive : Node, negative.Proper ∧ positive.Proper ∧ negative ≠ positive ∧
      negative.agrees positive = true ∧ negative.text = positive.text) ∧
    ∃ node other, parseText "(\"\n\")" = .ok [node] ∧ node.Bare ∧
      parseText "( \"\n\";\n)" = .ok [other] ∧ other.Bare ∧ node ≠ other ∧ node.text = other.text ∧
      node.agrees other = true := by
  -- Two zeros of opposite sign are the case for the laws, and two lists with a string over a line end for the
  -- texts.
  have inRange : 0 < Binary64.rankCount := by decide
  constructor
  · let zeros (negative : Bool) : Node := .list [.atom (.number (.finite negative 0 inRange))]
    have proper : ∀ negative, (zeros negative).Proper := by
      intro negative
      exact .list (by simpa using .atom (by simp [Atom.number?, Binary64.isNan]))
    obtain ⟨alike, -, -, -, -, text⟩ :=
      agrees_structural.1 (zeros true) (zeros false) (zeros true) (proper true) (proper false) (proper true)
    -- As integers both zeros are the same.
    have agree := alike.mpr (alike_list_iff.mpr (.cons (.atom (.number (.finite rfl rfl (by
      simp [Binary64.scaled, Binary64.signed_eq_iff, Binary64.units_eq])))) .nil))
    exact ⟨zeros true, zeros false, proper true, proper false, by simp [zeros], agree, text agree⟩
  · let string (column : Nat) : Node := .atom (.string "\n")
      [{ lexeme := .atom (.string "\n"), raw := "\"\n\"", location := { column } }]
    let node : Node := .list [string 1]
      [{ lexeme := .listOpen, raw := "(" },
        { lexeme := .listClose, raw := ")", location := { line := 1, column := 1 } }]
    let other : Node := .list [string 2]
      [{ lexeme := .listOpen, raw := "(" }, { lexeme := .listClose, raw := ")", location := { line := 2 } }]
    have read : parseText "(\"\n\")" = .ok [node] := by cbv
    have otherRead : parseText "( \"\n\";\n)" = .ok [other] := by cbv
    have bare : ∀ column, (string column).Bare := fun column => .atom (by decide)
    have nodeBare : node.Bare := .list (by simpa using bare 1)
    have otherBare : other.Bare := .list (by simpa using bare 2)
    refine ⟨node, other, read, nodeBare, otherRead, otherBare, by simp [node, other], rfl, ?_⟩
    exact agrees_structural.2 _ _ none none true true [node] [other] node other read (by simpa using nodeBare)
      otherRead (by simpa using otherBare) (.top List.mem_cons_self) (.top List.mem_cons_self) rfl

end Node

end Sexpr
