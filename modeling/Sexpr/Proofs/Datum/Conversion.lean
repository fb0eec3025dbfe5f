import Sexpr.Proofs.Datum.Leaves
import Sexpr.Proofs.Node.Equality

/-! Conversion both ways: what a plain value is behind the nodes made of it, and what a node is behind its plain
value. -/

namespace Sexpr

namespace Datum

/-- A plain value nested from truth values, finite numbers, integers that some number equals, texts, lists and
tuples. -/
inductive Simple : Datum → Prop
  | bool (value : Bool) : Simple (.bool value)
  | number {value : Binary64} (finite : value.isFinite = true) : Simple (.number value)
  | integer {value : Int} {number : Binary64} (equals : number.Equals value) : Simple (.integer value)
  | text (contents : String) : Simple (.text contents)
  | items {row : Row} {values : List Datum} (nested : row = .list ∨ row = .tuple)
      (all : ∀ value ∈ values, Simple value) : Simple (.items row values)

/-- How a plain value relates to the one with a list for each row, and for each integer the number that equals it,
which is the zero without a sign for zero. All else is the same. -/
inductive Settles : Datum → Datum → Prop
  | bool (value : Bool) : Settles (.bool value) (.bool value)
  | number (value : Binary64) : Settles (.number value) (.number value)
  | integer {value : Int} {number : Binary64} (equals : number.Equals value)
      (unsigned : value = 0 → number = .zero) : Settles (.integer value) (.number number)
  | text (contents : String) : Settles (.text contents) (.text contents)
  | items {row : Row} {values others : List Datum} (many : values.length = others.length)
      (each : ∀ pair ∈ values.zip others, Settles pair.1 pair.2) :
      Settles (.items row values) (.items .list others)

variable {datum other third : Datum}

/-- A row relates to a list exactly if their values do, one by one. -/
theorem settles_items_iff {row : Row} {values others : List Datum} :
    (items row values).Settles (items .list others) ↔ List.Forall₂ Settles values others := by
  -- The clause for rows speaks of pairs at the same index, which is the relation between two rows.
  rw [List.forall₂_iff_zip]
  constructor
  · intro settles
    cases settles with
    | items many each => exact ⟨many, fun member => each _ member⟩
  · rintro ⟨many, each⟩
    exact .items many fun pair member => each member

/-- A plain value relates to a single one. -/
theorem Settles.unique (settles : datum.Settles other) (also : datum.Settles third) : other = third := by
  -- The induction is on the first relation, and the second one is taken apart along with it.
  induction settles generalizing third with
  | bool value => cases also; rfl
  | number value => cases also; rfl
  | text contents => cases also; rfl
  | @integer value number equals unsigned =>
    cases also with
    | integer same alsoUnsigned =>
      -- Both are the zero without a sign, or the only number that equals the integer.
      by_cases zero : value = 0
      · rw [unsigned zero, alsoUnsigned zero]
      · rw [equals.unique same zero]
  | @items row values others many each ih =>
    cases also with
    | @items _ _ thirds alsoMany alsoEach =>
      have first := List.forall₂_iff_zip.mpr ⟨many, fun member => @ih _ member⟩
      have second := List.forall₂_iff_zip.mpr ⟨alsoMany, fun member => alsoEach _ member⟩
      -- Value by value there is one that it relates to, by hypothesis.
      have same := forall₂_through (fun _ _ _ single settles => single settles) first.flip second
      rw [List.forall₂_eq_eq_eq] at same
      rw [same]

end Datum

/-- An atom with the identifier of the same text in the place of a string or a comment. -/
def Atom.named : Atom → Atom
  | .string contents | .comment contents => .identifier contents
  | value => value

namespace Node

mutual

/-- A node with the identifier of the same text in the place of each string and each comment. -/
def named : Node → Node
  | .atom value tokens => .atom value.named tokens
  | .list children tokens => .list (namedAll children) tokens

/-- Nodes with identifiers in the place of strings and comments. -/
def namedAll : List Node → List Node
  | [] => []
  | node :: nodes => node.named :: namedAll nodes

end

theorem namedAll_eq_map (nodes : List Node) : namedAll nodes = nodes.map named := by
  induction nodes with
  | nil => rfl
  | cons node nodes ih => rw [namedAll, ih, List.map_cons]

/-- The plain values of nodes are those of each of them. -/
theorem toData_eq_map (nodes : List Node) : toData nodes = nodes.map toDatum := by
  induction nodes with
  | nil => rfl
  | cons node nodes ih => rw [toData, ih, List.map_cons]

/-- The node of a row of plain values is a list of their nodes. -/
theorem ofDatum_items {values : List Datum} {nodes : List Node} (converted : values.mapM ofDatum = .ok nodes)
    (row : Row) : ofDatum (.items row values) = .ok (.list nodes) := by
  rw [ofDatum, ofData_eq_mapM, converted]
  rfl

/-- A simple value has a node, and relates to the plain value of that. -/
theorem exists_ofDatum_of_simple {datum : Datum} (simple : datum.Simple) :
    ∃ node, ofDatum datum = .ok node ∧ datum.Settles node.toDatum := by
  -- By induction the values in a row have nodes that they settle to.
  induction simple with
  | bool value => exact ⟨_, rfl, .bool value⟩
  | number finite => exact ⟨_, if_pos finite, .number _⟩
  | text contents => exact ⟨_, rfl, .text contents⟩
  | integer equals =>
    -- The integer is converted to the number that equals it.
    obtain ⟨rounded, converted, exact, unsigned⟩ := Binary64.ofInt?_of_equals equals
    exact ⟨_, ofDatum_of_ofInt? converted, .integer exact unsigned⟩
  | items nested all ih =>
    -- By hypothesis each value has a node, so there is one for each of them in turn.
    obtain ⟨nodes, converted, each⟩ := mapM_of_each ih
    refine ⟨.list nodes, ofDatum_items converted _, ?_⟩
    rw [toDatum, toData_eq_map, Datum.settles_items_iff, List.forall₂_map_right_iff]
    exact each

/-- The plain value of a node with finite numbers has a node, which is like the first one but for identifiers in
the place of strings and comments. -/
theorem exists_ofDatum_toDatum {node : Node} (finite : node.NumbersHave fun number => number.isFinite = true) :
    ∃ back, ofDatum node.toDatum = .ok back ∧ back.Alike node.named := by
  -- The induction is on the node, whose numbers are finite.
  induction finite with
  | @atom value tokens each =>
    cases value with
    | bool value => exact ⟨_, rfl, .atom (.bool value)⟩
    | number value =>
      have finite := each value rfl
      exact ⟨_, if_pos finite, .atom (.number (.finite finite finite rfl))⟩
    | string contents => exact ⟨_, rfl, .atom (.identifier contents)⟩
    | identifier name => exact ⟨_, rfl, .atom (.identifier name)⟩
    | comment contents => exact ⟨_, rfl, .atom (.identifier contents)⟩
  | @list children tokens all ih =>
    -- By hypothesis the plain value of each child has such a node.
    obtain ⟨nodes, converted, each⟩ := mapM_of_each ih
    refine ⟨.list nodes, ?_, ?_⟩
    · rw [toDatum, toData_eq_map]
      exact ofDatum_items (List.mapM_map.trans converted) _
    · rw [named, namedAll_eq_map, alike_list_iff, List.forall₂_map_right_iff]
      exact each.flip

/-- What occurs in nodes that all occur in a forest occurs in that forest. -/
theorem Occurs.trans {forest others : List Node} {node : Node} (occurs : Occurs others node)
    (within : ∀ other ∈ others, Occurs forest other) : Occurs forest node := by
  -- The induction is on where the node occurs, from the top down.
  induction occurs with
  | top member => exact within _ member
  | child _ member ih => exact .child ih member

/-- If a node is like itself with identifiers in the place of strings and comments, so is every node in it. -/
theorem named_alike_of_occurs {node inner : Node} (alike : node.named.Alike node) (occurs : Occurs [node] inner) :
    inner.named.Alike inner := by
  -- The induction is on where the inner node occurs, from the top down.
  induction occurs with
  | top member => exact List.mem_singleton.mp member ▸ alike
  | child _ member ih =>
    rw [named, namedAll_eq_map, alike_list_iff, List.forall₂_map_left_iff, List.forall₂_same] at ih
    exact ih _ member

/-- Putting identifiers in the place of strings and comments leaves a node as it is exactly if there are none. -/
theorem named_alike_iff {node : Node} (finite : node.NumbersHave fun number => number.isFinite = true) :
    node.named.Alike node ↔
      ∀ inner, Occurs [node] inner → inner.is .string = false ∧ inner.is .comment = false := by
  -- In one direction the likeness is carried to the inner node, and in the other the induction is on the node.
  constructor
  · intro alike inner occurs
    have still := named_alike_of_occurs alike occurs
    cases inner with
    | list children tokens => exact ⟨rfl, rfl⟩
    | atom value tokens =>
      -- An identifier is not like a string or a comment.
      cases value with
      | bool => exact ⟨rfl, rfl⟩
      | number => exact ⟨rfl, rfl⟩
      | identifier => exact ⟨rfl, rfl⟩
      | string contents =>
        cases still with
        | atom alike => cases alike
      | comment contents =>
        cases still with
        | atom alike => cases alike
  · intro absent
    induction finite with
    | @atom value tokens each =>
      have only := absent _ (.top List.mem_cons_self)
      cases value with
      | bool value => exact .atom (.bool value)
      | number value => exact .atom (.number (.finite (each value rfl) (each value rfl) rfl))
      | identifier name => exact .atom (.identifier name)
      | string contents => cases only.1
      | comment contents => cases only.2
    | @list children tokens all ih =>
      rw [named, namedAll_eq_map, alike_list_iff, List.forall₂_map_left_iff, List.forall₂_same]
      intro child member
      refine ih child member fun inner occurs => absent inner (occurs.trans fun other inside => ?_)
      -- What occurs in a child occurs in the list.
      exact List.mem_singleton.mp inside ▸ .child (.top List.mem_cons_self) member

/-- Conversion from plain values to nodes and back, and from nodes to plain values and back. A simple value has a
node, whose plain value has a list for each row and for each integer the number that equals it, and is the same
otherwise. The plain value of a node with finite numbers has a node, which agrees with the first one with
identifiers in the place of strings and comments; so it agrees with the first one exactly if there are none. -/
theorem ofDatum_toDatum :
    (∀ datum : Datum, datum.Simple → ∃ node, ofDatum datum = .ok node ∧
      ∀ result, datum.Settles result ↔ result = node.toDatum) ∧
    ∀ node : Node, (node.NumbersHave fun number => number.isFinite = true) →
      ∃ back, ofDatum node.toDatum = .ok back ∧ back.agrees node.named = true ∧
        (back.agrees node = true ↔
          ∀ inner, Occurs [node] inner → inner.is .string = false ∧ inner.is .comment = false) := by
  -- A simple value has a node, and what it settles to is unique. A node comes back with identifiers for its
  -- texts.
  constructor
  · intro datum simple
    obtain ⟨node, converted, settles⟩ := exists_ofDatum_of_simple simple
    refine ⟨node, converted, fun result => ⟨fun also => also.unique settles, ?_⟩⟩
    rintro rfl
    exact settles
  · intro node finite
    obtain ⟨back, converted, alike⟩ := exists_ofDatum_toDatum finite
    refine ⟨back, converted, agrees_iff_alike.mpr alike, ?_⟩
    -- One that is like another with identifiers put in is like a third exactly if that other is.
    rw [agrees_iff_alike, ← named_alike_iff finite]
    exact ⟨alike.symm.trans, alike.trans⟩

/-- A tuple of a truth value, an integer and a text becomes a list with a number for the integer, and a list of an
identifier and a string comes back with two identifiers. -/
theorem ofDatum_toDatum_tuple :
    (∃ number node, Binary64.Equals number (-1) ∧
      ofDatum (.items .tuple [.bool true, .integer (-1), .text "a"]) = .ok node ∧
      node.toDatum = .items .list [.bool true, .number number, .text "a"]) ∧
    ∃ back, ofDatum (Node.list [.atom (.identifier "a"), .atom (.string "a")]).toDatum = .ok back ∧
      back.agrees (.list [.atom (.identifier "a"), .atom (.identifier "a")]) = true ∧
      back.agrees (.list [.atom (.identifier "a"), .atom (.string "a")]) = false := by
  -- A row of three values is the case for values, and a string beside an identifier the one for nodes.
  constructor
  · have inRange : 1022 * 2 ^ 52 + 2 ^ 52 < Binary64.rankCount := by decide
    have equals : (Binary64.finite true (1022 * 2 ^ 52 + 2 ^ 52) inRange).Equals (-1) := by
      refine ⟨rfl, ?_⟩
      -- As many of the finest steps make up one.
      rw [Binary64.scaled, Binary64.units_split (by decide) (Or.inr (Nat.le_refl _)), ← Nat.pow_add,
        show 52 + 1022 = Binary64.finest from rfl]
      simp only [Binary64.signed, if_true, Nat.cast_pow, Nat.cast_ofNat, neg_one_mul]
    have simple : (Datum.items .tuple [.bool true, .integer (-1), .text "a"]).Simple :=
      .items (Or.inr rfl) (by simpa using ⟨.bool true, .integer equals, .text "a"⟩)
    obtain ⟨node, converted, settles⟩ := ofDatum_toDatum.1 _ simple
    have each := List.Forall₂.cons (Datum.Settles.bool true)
      (.cons (.integer equals fun zero => absurd zero (by decide)) (.cons (.text "a") .nil))
    exact ⟨_, node, equals, converted, ((settles _).mp (Datum.settles_items_iff.mpr each)).symm⟩
  · have finite : (list [atom (.identifier "a"), atom (.string "a")]).NumbersHave
        fun number => number.isFinite = true :=
      .list (by simpa using ⟨.atom (by simp [Atom.number?]), .atom (by simp [Atom.number?])⟩)
    obtain ⟨back, converted, agree, same⟩ := ofDatum_toDatum.2 _ finite
    refine ⟨back, converted, agree, ?_⟩
    -- The string inside would have to be none.
    rw [← Bool.not_eq_true, same]
    intro absent
    cases (absent (.atom (.string "a")) (.child (.top List.mem_cons_self) (by simp))).1

end Node

end Sexpr
