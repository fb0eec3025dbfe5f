import Sexpr.Datum
import Sexpr.Proofs.InTurn
import Sexpr.Proofs.Number.Integers
import Sexpr.Proofs.Number.Numeral

/-! Which plain values have nodes: those all of whose leaves have one. Otherwise the first leaf without a node
decides the fault. -/

namespace Sexpr

namespace Datum

/-- Whether a plain value is gone through item by item. -/
def isRow : Datum → Bool
  | .items .. => true
  | _ => false

/-- Induction on plain values: what holds of a row may be shown from all the values in it. -/
@[elab_as_elim]
theorem ind {motive : Datum → Prop} (leaf : ∀ datum, datum.isRow = false → motive datum)
    (items : ∀ row values, (∀ value ∈ values, motive value) → motive (.items row values)) :
    ∀ datum, motive datum
  | .items row values => items row values fun value _ => ind leaf items value
  | .nothing => leaf _ rfl
  | .bool _ => leaf _ rfl
  | .integer _ => leaf _ rfl
  | .number _ => leaf _ rfl
  | .text _ => leaf _ rfl
  | .foreign .. => leaf _ rfl

mutual

/-- The leaves of a plain value from left to right, where each row is gone through at its place. -/
def leaves : Datum → List Datum
  | .items _ values => leavesAll values
  | leaf => [leaf]

/-- The leaves of a row of plain values. -/
def leavesAll : List Datum → List Datum
  | [] => []
  | value :: values => value.leaves ++ leavesAll values

end

/-- A leaf that has a node: a truth value, a text, a finite number, or an integer with a finite number nearest
to it. -/
inductive Convertible : Datum → Prop
  | bool (value : Bool) : Convertible (.bool value)
  | text (contents : String) : Convertible (.text contents)
  | number {value : Binary64} (finite : value.isFinite = true) : Convertible (.number value)
  | integer {value : Int} {rank : Nat} (inRange : rank < Binary64.rankCount)
      (nearest : Binary64.IsNearest rank value.natAbs 1) : Convertible (.integer value)

/-- A leaf that has no node, and the fault that it gives rise to. -/
inductive Refused : Datum → DatumFault → Prop
  | nothing : Refused .nothing (.unsupported "NoneType")
  | foreign (typeName : String) (equal : Option Binary64) :
      Refused (.foreign typeName equal) (.unsupported typeName)
  | number {value : Binary64} (notFinite : value.isFinite = false) : Refused (.number value) (.notFinite value)
  | integer {value : Int} {rank : Nat} (beyond : Binary64.rankCount ≤ rank)
      (nearest : Binary64.IsNearest rank value.natAbs 1) : Refused (.integer value) (.tooLarge value)

/-- The leaves of a row are those of the values in it, in order. -/
theorem leavesAll_eq_flatMap (values : List Datum) : leavesAll values = values.flatMap leaves := by
  induction values with
  | nil => rfl
  | cons value values ih => rw [leavesAll, ih, List.flatMap_cons]

/-- A value that is no row is its only leaf. -/
theorem leaves_of_leaf {datum : Datum} (leaf : datum.isRow = false) : datum.leaves = [datum] := by
  -- Only a row has leaves other than itself.
  cases datum with
  | items => cases leaf
  | nothing => rfl
  | bool => rfl
  | integer => rfl
  | number => rfl
  | text => rfl
  | foreign => rfl

/-- A leaf is no row. -/
theorem isRow_of_mem_leaves (datum : Datum) : ∀ leaf ∈ datum.leaves, leaf.isRow = false := by
  -- A row is none of its own leaves, and by induction no value in it adds one.
  induction datum using ind with
  | leaf datum single => simpa [leaves_of_leaf single] using single
  | items row values ih =>
    -- Each leaf of a row is one of a value in it.
    rw [leaves, leavesAll_eq_flatMap]
    intro leaf member
    obtain ⟨value, inside, among⟩ := List.mem_flatMap.mp member
    exact ih value inside leaf among

end Datum

/-- Whether a fault is an overflow on the way from an integer to a number, and not an error of the value. -/
def DatumFault.isOverflow : DatumFault → Bool
  | .tooLarge _ => true
  | _ => false

namespace Node

/-- The nodes of plain values are those of each of them, in turn. -/
theorem ofData_eq_mapM (values : List Datum) : ofData values = values.mapM ofDatum := by
  induction values with
  | nil => rfl
  | cons value values ih =>
    rw [ofData, mapM_cons_eq, ih]
    cases ofDatum value <;> rfl

/-- The node of an integer that is converted to a number. -/
theorem ofDatum_of_ofInt? {value : Int} {rounded : Binary64} (converted : Binary64.ofInt? value = some rounded) :
    ofDatum (.integer value) = .ok (.atom (.number rounded)) := by
  rw [ofDatum, Datum.roundInteger, converted]
  rfl

/-- The fault of an integer that is not converted to a number. -/
theorem ofDatum_of_ofInt?_none {value : Int} (tooLarge : Binary64.ofInt? value = none) :
    ofDatum (.integer value) = .error (.tooLarge value) := by
  rw [ofDatum, Datum.roundInteger, tooLarge]
  rfl

/-- A convertible leaf has a node. -/
theorem exists_ofDatum {leaf : Datum} (convertible : leaf.Convertible) : ∃ node, ofDatum leaf = .ok node := by
  -- Each reason is what the conversion asks about.
  cases convertible with
  | bool value => exact ⟨_, rfl⟩
  | text contents => exact ⟨_, rfl⟩
  | number finite => exact ⟨_, if_pos finite⟩
  | integer inRange nearest =>
    -- Rounding finds the only rank that is nearest.
    obtain rfl := nearest.unique Nat.one_pos (Binary64.nearestRank_isNearest _ Nat.one_pos)
    exact ⟨_, ofDatum_of_ofInt? (Binary64.ofInt?_of_lt inRange)⟩

/-- A refused leaf has no node, for its own fault. -/
theorem ofDatum_of_refused {leaf : Datum} {fault : DatumFault} (refused : leaf.Refused fault) :
    ofDatum leaf = .error fault := by
  -- Each reason is what the conversion asks about.
  cases refused with
  | nothing => rfl
  | foreign => rfl
  | number notFinite => exact if_neg (Bool.not_eq_true _ ▸ notFinite)
  | integer beyond nearest =>
    obtain rfl := nearest.unique Nat.one_pos (Binary64.nearestRank_isNearest _ Nat.one_pos)
    exact ofDatum_of_ofInt?_none (Binary64.ofInt?_of_le beyond)

/-- Every leaf is convertible or refused. -/
theorem convertible_or_refused {leaf : Datum} (single : leaf.isRow = false) :
    leaf.Convertible ∨ ∃ fault, leaf.Refused fault := by
  -- The case is the leaf. Only for a number and an integer is there anything to decide.
  cases leaf with
  | items => cases single
  | nothing => exact Or.inr ⟨_, .nothing⟩
  | bool value => exact Or.inl (.bool value)
  | text contents => exact Or.inl (.text contents)
  | foreign typeName equal => exact Or.inr ⟨_, .foreign typeName equal⟩
  | number value =>
    cases finite : value.isFinite with
    | true => exact Or.inl (.number finite)
    | false => exact Or.inr ⟨_, .number finite⟩
  | integer value =>
    -- The nearest rank is that of a finite number or lies beyond these.
    have nearest := Binary64.nearestRank_isNearest value.natAbs Nat.one_pos
    rcases Nat.lt_or_ge (Binary64.nearestRank value.natAbs 1) Binary64.rankCount with inRange | beyond
    · exact Or.inl (.integer inRange nearest)
    · exact Or.inr ⟨_, .integer beyond nearest⟩

variable {leaf : Datum}

/-- A leaf has a node exactly if it is convertible. -/
theorem exists_ofDatum_iff (single : leaf.isRow = false) :
    (∃ node, ofDatum leaf = .ok node) ↔ leaf.Convertible := by
  -- A leaf is convertible or refused, and not both.
  refine ⟨?_, exists_ofDatum⟩
  rintro ⟨node, converted⟩
  rcases convertible_or_refused single with convertible | ⟨fault, refused⟩
  · exact convertible
  · rw [ofDatum_of_refused refused] at converted
    cases converted

/-- A leaf has a fault exactly if it is refused for it. -/
theorem ofDatum_eq_error_iff (single : leaf.isRow = false) (fault : DatumFault) :
    ofDatum leaf = .error fault ↔ leaf.Refused fault := by
  -- A leaf is convertible or refused, and not both.
  refine ⟨fun failed => ?_, ofDatum_of_refused⟩
  rcases convertible_or_refused single with convertible | ⟨other, refused⟩
  · obtain ⟨node, converted⟩ := exists_ofDatum convertible
    rw [failed] at converted
    cases converted
  · obtain rfl := Except.error.inj (failed.symm.trans (ofDatum_of_refused refused))
    exact refused

/-- A plain value is converted to the same end as its leaves are, one after the other. -/
theorem settled_ofDatum (datum : Datum) : settled (ofDatum datum) = settled (datum.leaves.mapM ofDatum) := by
  -- By induction the values in a row end as their leaves do.
  induction datum using Datum.ind with
  | leaf datum single =>
    rw [Datum.leaves_of_leaf single, settled_mapM_cons]
    cases ofDatum datum <;> rfl
  | items row values ih =>
    -- Making a list of the nodes does not fail, so the values in the row decide.
    have rows : settled (ofDatum (.items row values)) = settled (values.mapM ofDatum) := by
      rw [ofDatum, ofData_eq_mapM]
      cases values.mapM ofDatum <;> rfl
    rw [rows, Datum.leaves, Datum.leavesAll_eq_flatMap, settled_mapM_flatMap ih]

/-- A plain value has a node exactly if all of its leaves are convertible. -/
theorem exists_ofDatum_iff_leaves (datum : Datum) :
    (∃ node, ofDatum datum = .ok node) ↔ ∀ leaf ∈ datum.leaves, leaf.Convertible := by
  -- A value ends as its leaves do in a row.
  rw [exists_ok_iff_of_settled (settled_ofDatum datum), exists_mapM_eq_ok_iff]
  exact forall₂_congr fun leaf member => exists_ofDatum_iff (datum.isRow_of_mem_leaves leaf member)

/-- A plain value has the fault of its first leaf that is not convertible. -/
theorem ofDatum_eq_error_iff_leaves (datum : Datum) (fault : DatumFault) : ofDatum datum = .error fault ↔
    ∃ before leaf behind, datum.leaves = before ++ leaf :: behind ∧
      (∀ earlier ∈ before, earlier.Convertible) ∧ leaf.Refused fault := by
  -- A value ends as its leaves do in a row, and that with the first error.
  have single := datum.isRow_of_mem_leaves
  rw [eq_error_iff_of_settled (settled_ofDatum datum), mapM_eq_error_iff]
  -- Leaf by leaf both sides say the same.
  constructor
  · rintro ⟨before, leaf, behind, parts, succeed, failed⟩
    rw [parts] at single
    refine ⟨before, leaf, behind, parts, fun earlier member => ?_, ?_⟩
    · exact (exists_ofDatum_iff (single earlier (by simp [member]))).mp (succeed earlier member)
    · exact (ofDatum_eq_error_iff (single leaf (by simp)) fault).mp failed
  · rintro ⟨before, leaf, behind, parts, convertible, refused⟩
    refine ⟨before, leaf, behind, parts, fun earlier member => ?_, ofDatum_of_refused refused⟩
    exact exists_ofDatum (convertible earlier member)

/-- A refused leaf is not convertible. -/
theorem not_convertible_of_refused {fault : DatumFault} (refused : leaf.Refused fault) :
    ¬ leaf.Convertible := by
  -- The conversion has one outcome.
  intro convertible
  obtain ⟨node, converted⟩ := exists_ofDatum convertible
  rw [ofDatum_of_refused refused] at converted
  cases converted

/-- The fault of a plain value is an overflow exactly if its first leaf that is not convertible is an integer. -/
theorem isOverflow_iff {datum : Datum} {fault : DatumFault} (failed : ofDatum datum = .error fault) :
    fault.isOverflow = true ↔ ∃ before value behind, datum.leaves = before ++ .integer value :: behind ∧
      (∀ earlier ∈ before, earlier.Convertible) ∧ ¬ Datum.Convertible (.integer value) := by
  -- The fault is that of the first leaf that is refused.
  constructor
  · intro overflow
    obtain ⟨before, leaf, behind, parts, convertible, refused⟩ :=
      (ofDatum_eq_error_iff_leaves datum fault).mp failed
    have kept := not_convertible_of_refused refused
    -- Only an integer is refused for an overflow.
    cases refused with
    | integer beyond nearest => exact ⟨before, _, behind, parts, convertible, kept⟩
    | nothing => cases overflow
    | foreign => cases overflow
    | number => cases overflow
  · rintro ⟨before, value, behind, parts, convertible, kept⟩
    obtain ⟨other, refused⟩ := (convertible_or_refused rfl).resolve_left kept
    -- This leaf decides the fault, and an integer is refused for nothing else.
    have same := (ofDatum_eq_error_iff_leaves datum other).mpr
      ⟨before, _, behind, parts, convertible, refused⟩
    obtain rfl := Except.error.inj (failed.symm.trans same)
    cases refused with
    | integer => rfl

/-- Which plain values have nodes, and with what fault the others fail. A value has a node exactly if all of its
leaves are convertible, and otherwise the first leaf that is not decides the fault. This is an overflow exactly if
that leaf is an integer, so without an integer beyond the finite numbers it never is. -/
theorem ofDatum_contract (datum : Datum) :
    ((∃ node, ofDatum datum = .ok node) ↔ ∀ leaf ∈ datum.leaves, leaf.Convertible) ∧
    (∀ fault, ofDatum datum = .error fault ↔ ∃ before leaf behind, datum.leaves = before ++ leaf :: behind ∧
      (∀ earlier ∈ before, earlier.Convertible) ∧ leaf.Refused fault) ∧
    (∀ fault, ofDatum datum = .error fault → (fault.isOverflow = true ↔
      ∃ before value behind, datum.leaves = before ++ .integer value :: behind ∧
        (∀ earlier ∈ before, earlier.Convertible) ∧ ¬ Datum.Convertible (.integer value))) ∧
    ((∀ value, .integer value ∈ datum.leaves → Datum.Convertible (.integer value)) →
      ∀ fault, ofDatum datum = .error fault → fault.isOverflow = false) := by
  -- The last part is the one before it, for values whose integers are all convertible.
  refine ⟨exists_ofDatum_iff_leaves datum, ofDatum_eq_error_iff_leaves datum, fun _ => isOverflow_iff, ?_⟩
  intro small fault failed
  rw [← Bool.not_eq_true, isOverflow_iff failed]
  rintro ⟨before, value, behind, parts, -, kept⟩
  exact kept (small value (by simp [parts]))

/-- The first power of two beyond the finite numbers stops the conversion with an overflow, although what stands
behind it has no node for another reason. -/
theorem ofDatum_contract_overflow :
    ofDatum (.items .list [.bool true, .integer (2 ^ 1024), .nothing]) = .error (.tooLarge (2 ^ 1024)) ∧
      (DatumFault.tooLarge (2 ^ 1024)).isOverflow = true := by
  -- The leaf in front is converted, and the one behind is not looked at.
  have refused : Datum.Refused (.integer (2 ^ 1024)) (.tooLarge (2 ^ 1024)) := by
    -- The rank of infinity has exactly this magnitude.
    refine .integer (Nat.le_refl _) (Binary64.isNearest_of_eq Nat.one_pos ?_)
    rw [Binary64.units_rankCount, Nat.mul_one, Int.natAbs_pow, show Int.natAbs 2 = 2 from rfl]
  have convertible : ∀ earlier ∈ [Datum.bool true], earlier.Convertible := by simpa using .bool true
  obtain ⟨-, fails, overflows, -⟩ :=
    ofDatum_contract (.items .list [.bool true, .integer (2 ^ 1024), .nothing])
  have failed := (fails _).mpr ⟨[.bool true], _, [.nothing], rfl, convertible, refused⟩
  exact ⟨failed, (overflows _ failed).mpr
    ⟨[.bool true], _, [.nothing], rfl, convertible, not_convertible_of_refused refused⟩⟩

end Node

end Sexpr
