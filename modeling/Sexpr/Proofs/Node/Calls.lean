import Mathlib.Data.List.Lex
import Mathlib.Data.List.Pairwise
import Mathlib.Order.WithBot
import Sexpr.Node.Transform

/-! The calls that a walk over a tree makes, each at the position of its node, and the order in which they nest. -/

namespace Sexpr

/-- A call for a node on the way down or on the way up, with what it is answered. -/
inductive Call where
  | down (node : Node) (visit : Visit)
  | up (node : Node) (result : Option Node)

/-- Whether a call is one on the way up. -/
def Call.isUp : Call → Bool
  | down .. => false
  | up .. => true

/-- The node that a call on the way up leaves. -/
def Call.result? : Call → Option Node
  | down .. => none
  | up _ result => result

/-- A call at a position: the way from the root down to its node, child by child. -/
abbrev Placed := List Nat × Call

namespace Placed

/-- Where a call comes among all calls. On the way up a node comes behind all that is below it, as if it were its
own last child. -/
def rank (placed : Placed) : List (WithTop Nat) :=
  placed.1.map WithTop.some ++ if placed.2.isUp then [⊤] else []

/-- A call of a walk over the child at an index, as one of the walk over the list. -/
def below (index : Nat) (placed : Placed) : Placed := (index :: placed.1, placed.2)

theorem rank_below (index : Nat) (placed : Placed) :
    (placed.below index).rank = WithTop.some index :: placed.rank := rfl

end Placed

/-- Calls in the order of their ranks. -/
def Ascending (calls : List Placed) : Prop := calls.Pairwise fun earlier later => earlier.rank < later.rank

/-- A position that lies to the right of another one: where they part, it goes down to a later child. -/
def RightOf (position other : List Nat) : Prop :=
  ∃ above first second rest otherRest, first < second ∧ other = above ++ first :: otherRest ∧
    position = above ++ second :: rest

/-- Calls that nest as the nodes of a tree do. On the way down each position is called once at most, a node before
its children and these from left to right; on the way up each is called once at most, after every call
within its node and before any call to the right of it. -/
structure WellNested (calls : List Placed) : Prop where
  preorder : ((calls.filter (!·.2.isUp)).map Prod.fst).Pairwise (· < ·)
  once : ((calls.filter (·.2.isUp)).map Prod.fst).Nodup
  afterInside : calls.Pairwise fun earlier later => earlier.2.isUp = true → ¬ earlier.1 <+: later.1
  leftToRight : calls.Pairwise fun earlier later => ¬ RightOf earlier.1 later.1

/-- Positions on the way down are ranked as they are ordered. -/
theorem lt_of_map_lt {position other : List Nat}
    (less : position.map WithTop.some < other.map WithTop.some) : position < other := by
  -- The induction is on the first position, with the second left open.
  induction position generalizing other with
  | nil =>
    cases other with
    | nil => exact absurd less (List.not_lt_nil _)
    | cons index other => exact List.nil_lt_cons index other
  | cons index position ih =>
    cases other with
    | nil => exact absurd less (List.not_lt_nil _)
    | cons otherIndex other =>
      -- The first index decides unless it is the same.
      simp only [List.map_cons, List.cons_lt_cons_iff, WithTop.coe_lt_coe, WithTop.coe_inj] at less
      exact List.cons_lt_cons_iff.mpr (less.imp_right fun rest => ⟨rest.1, ih rest.2⟩)

/-- What two rows have in common in front does not decide their order. -/
theorem append_lt_append_iff {common row other : List (WithTop Nat)} :
    common ++ row < common ++ other ↔ row < other := by
  -- The induction is on the common part, which the order passes over.
  induction common with
  | nil => rfl
  | cons index common ih => simp [ih]

namespace Placed

variable {earlier later : Placed}

/-- Nothing within a node comes behind its call on the way up. -/
theorem not_inside_of_rank_lt (less : earlier.rank < later.rank) (up : earlier.2.isUp = true) :
    ¬ earlier.1 <+: later.1 := by
  -- If the later position were below the earlier one, its rank would be the lower one.
  intro inside
  obtain ⟨rest, parts⟩ := inside
  rw [rank, rank, ← parts, if_pos up, List.map_append, List.append_assoc, append_lt_append_iff] at less
  -- No index is as high as that of the call on the way up.
  cases rest with
  | nil =>
    rw [List.map_nil, List.nil_append] at less
    split at less
    · exact List.lt_irrefl _ less
    · exact List.not_lt_nil _ less
  | cons index rest => simp [List.cons_lt_cons_iff] at less

/-- Nothing to the right of a node comes before a call for it. -/
theorem not_rightOf_of_rank_lt (less : earlier.rank < later.rank) : ¬ RightOf earlier.1 later.1 := by
  -- If the earlier position stood further right, its rank would be the higher one.
  intro right
  obtain ⟨above, first, second, rest, otherRest, ordered, otherParts, parts⟩ := right
  -- Where the positions part the ranks do, and there the first index decides.
  rw [rank, rank, parts, otherParts, List.map_append, List.map_append, List.append_assoc,
    List.append_assoc, append_lt_append_iff, List.map_cons, List.map_cons, List.cons_append,
    List.cons_append, List.cons_lt_cons_iff, WithTop.coe_lt_coe, WithTop.coe_inj] at less
  omega

end Placed

/-- The calls of walks over a row of children, the first of which has an index. -/
def rowCalls : Nat → List (List Placed) → List Placed
  | _, [] => []
  | index, calls :: others => calls.map (Placed.below index) ++ rowCalls (index + 1) others

/-- The calls of a walk over a list: those for its children between its own two. -/
def listCalls (down up : Call) (children : List (List Placed)) : List Placed :=
  ([], down) :: (rowCalls 0 children ++ [([], up)])

/-- The node that was left at a position on the way up. -/
def resultAt (calls : List Placed) (position : List Nat) : Option Node :=
  calls.findSome? fun placed => if placed.1 = position then placed.2.result? else none

/-- Calls in the order of their ranks nest as the nodes of a tree do. -/
theorem Ascending.wellNested {calls : List Placed} (ascending : Ascending calls) :
    WellNested calls := by
  -- Each part of the order is one fact about ranks, asked of every pair of calls.
  refine ⟨?_, ?_, ?_, ?_⟩
  · rw [List.pairwise_map, List.pairwise_filter]
    refine ascending.imp fun {earlier later} less down otherDown => lt_of_map_lt ?_
    -- On the way down the rank is the position alone.
    rw [Bool.not_eq_true', ← Bool.not_eq_true] at down otherDown
    simpa [Placed.rank, down, otherDown] using less
  · rw [List.Nodup, List.pairwise_map, List.pairwise_filter]
    refine ascending.imp fun {earlier later} less up otherUp same => ?_
    exact Placed.not_inside_of_rank_lt less up (same ▸ List.prefix_rfl)
  · exact ascending.imp fun less up => Placed.not_inside_of_rank_lt less up
  · exact ascending.imp fun less => Placed.not_rightOf_of_rank_lt less

variable {down up : Call} {children : List (List Placed)}

/-- The calls for a row of children are those of each child, below its index. -/
theorem mem_rowCalls {start : Nat} {placed : Placed} : placed ∈ rowCalls start children ↔
    ∃ index calls, ∃ inner : Placed, children[index]? = some calls ∧ inner ∈ calls ∧
      placed = inner.below (start + index) := by
  -- The induction is on the row, with its first index left open.
  induction children generalizing start with
  | nil => simp [rowCalls]
  | cons first others ih =>
    rw [rowCalls, List.mem_append, List.mem_map, ih]
    constructor
    · intro either
      obtain ⟨inner, member, rfl⟩ | ⟨index, calls, inner, found, member, rfl⟩ := either
      · exact ⟨0, first, inner, rfl, member, rfl⟩
      · exact ⟨index + 1, calls, inner, found, member, by rw [Nat.add_right_comm, Nat.add_assoc]⟩
    · intro called
      obtain ⟨index, calls, inner, found, member, rfl⟩ := called
      -- The first child has the index of the row, and the others follow.
      cases index with
      | zero =>
        obtain rfl := Option.some.inj found
        exact Or.inl ⟨inner, member, rfl⟩
      | succ index =>
        exact Or.inr ⟨index, calls, inner, found, member, by rw [Nat.add_right_comm, Nat.add_assoc]⟩

/-- The calls for a list are its own two and those of each child, below its index. -/
theorem mem_listCalls {placed : Placed} : placed ∈ listCalls down up children ↔
    placed = ([], down) ∨ placed = ([], up) ∨ ∃ index calls, ∃ inner : Placed,
      children[index]? = some calls ∧ inner ∈ calls ∧ placed = inner.below index := by
  -- The calls are the first one, those of the row and the last one.
  simp only [listCalls, List.mem_cons, List.mem_append, mem_rowCalls, Nat.zero_add, List.not_mem_nil,
    or_false]
  rw [Or.comm (a := ∃ _, _)]

/-- At the position of a list stand its own two calls. -/
theorem mem_listCalls_nil {call : Call} :
    ([], call) ∈ listCalls down up children ↔ call = down ∨ call = up := by
  -- The calls for children stand below the list, so none of them has its position.
  simp [mem_listCalls, Placed.below]

/-- Below a list the calls are those for its children. -/
theorem mem_listCalls_cons {index : Nat} {position : List Nat} {call : Call} :
    (index :: position, call) ∈ listCalls down up children ↔
      ∃ calls, children[index]? = some calls ∧ (position, call) ∈ calls := by
  -- The two calls for the list itself have no index, so the call is one of the row.
  simp only [mem_listCalls, Prod.mk.injEq, List.cons_ne_nil, false_and, false_or, Placed.below,
    List.cons.injEq]
  constructor
  · intro called
    obtain ⟨_, calls, ⟨_, _⟩, found, member, ⟨rfl, rfl⟩, rfl⟩ := called
    exact ⟨calls, found, member⟩
  · intro called
    obtain ⟨calls, found, member⟩ := called
    exact ⟨index, calls, (position, call), found, member, ⟨rfl, rfl⟩, rfl⟩

/-- Without their positions the calls for a row are those of each child in turn. -/
theorem map_snd_rowCalls (start : Nat) (children : List (List Placed)) :
    (rowCalls start children).map Prod.snd = children.flatMap (·.map Prod.snd) := by
  -- The induction is on the row, as placing a call does not change it.
  induction children generalizing start with
  | nil => rfl
  | cons calls others ih =>
    rw [rowCalls, List.map_append, List.map_map, ih, List.flatMap_cons]
    rfl

/-- The calls for a row ascend if those of each child do. -/
theorem ascending_rowCalls (start : Nat) (each : ∀ calls ∈ children, Ascending calls) :
    Ascending (rowCalls start children) := by
  -- The induction is on the row. Inside a child the index is the same, so the ranks compare as without it.
  induction children generalizing start with
  | nil => exact List.Pairwise.nil
  | cons calls others ih =>
    obtain ⟨first, more⟩ := List.forall_mem_cons.mp each
    refine List.pairwise_append.mpr ⟨?_, ih (start + 1) more, ?_⟩
    · rw [List.pairwise_map]
      refine first.imp fun {earlier later} less => ?_
      rw [Placed.rank_below, Placed.rank_below]
      exact List.cons_lt_cons_iff.mpr (Or.inr ⟨rfl, less⟩)
    · -- All calls for later children have a higher index.
      intro placed inFirst later inOthers
      obtain ⟨inner, -, rfl⟩ := List.mem_map.mp inFirst
      obtain ⟨index, _, other, -, -, rfl⟩ := mem_rowCalls.mp inOthers
      rw [Placed.rank_below, Placed.rank_below]
      exact List.cons_lt_cons_iff.mpr (Or.inl (WithTop.coe_lt_coe.mpr (by omega)))

/-- The calls for a list ascend if those of each child do. -/
theorem ascending_listCalls (downFirst : down.isUp = false) (upLast : up.isUp = true)
    (each : ∀ calls ∈ children, Ascending calls) : Ascending (listCalls down up children) := by
  -- The ranks of the two calls for the list are the lowest and the highest.
  have first : Placed.rank ([], down) = [] := by simp [Placed.rank, downFirst]
  have last : Placed.rank ([], up) = [⊤] := by simp [Placed.rank, upLast]
  refine List.Pairwise.cons ?_ (List.pairwise_append.mpr
    ⟨ascending_rowCalls 0 each, List.pairwise_singleton _ _, ?_⟩)
  · -- The first call has the lowest rank of all.
    intro placed member
    rw [first]
    rcases List.mem_append.mp member with inside | final
    · obtain ⟨index, _, inner, -, -, rfl⟩ := mem_rowCalls.mp inside
      exact List.nil_lt_cons _ _
    · rw [List.mem_singleton.mp final, last]
      exact List.nil_lt_cons _ _
  · -- The index of the last call is higher than that of any child.
    intro placed inside other final
    obtain ⟨index, _, inner, -, -, rfl⟩ := mem_rowCalls.mp inside
    rw [List.mem_singleton.mp final, last, Placed.rank_below]
    exact List.cons_lt_cons_iff.mpr (Or.inl (WithTop.coe_lt_top _))

/-- In ascending calls there is only one of each rank. -/
theorem Ascending.eq_of_rank {calls : List Placed} (ascending : Ascending calls) {placed other : Placed}
    (member : placed ∈ calls) (otherMember : other ∈ calls) (same : placed.rank = other.rank) :
    placed = other := by
  -- Two different ones would have one rank below the other.
  obtain ⟨first, inFirst, rfl⟩ := List.getElem_of_mem member
  obtain ⟨second, inSecond, rfl⟩ := List.getElem_of_mem otherMember
  rcases Nat.lt_trichotomy first second with less | rfl | more
  · have ranked := List.pairwise_iff_getElem.mp ascending first second inFirst inSecond less
    rw [same] at ranked
    exact absurd ranked (List.lt_irrefl _)
  · rfl
  · have ranked := List.pairwise_iff_getElem.mp ascending second first inSecond inFirst more
    rw [same] at ranked
    exact absurd ranked (List.lt_irrefl _)

/-- What is left at a position is what the call on the way up was answered there. -/
theorem resultAt_eq_some_iff {calls : List Placed} (ascending : Ascending calls) {position : List Nat}
    {kept : Node} : resultAt calls position = some kept ↔
      ∃ given, (position, Call.up given (some kept)) ∈ calls := by
  -- The search finds a call on the way up at this position.
  constructor
  · intro found
    obtain ⟨⟨other, call⟩, member, left⟩ := List.exists_of_findSome?_eq_some found
    split at left
    · rename_i here
      cases call with
      | down node visit => cases left
      | up given result =>
        obtain rfl : result = some kept := left
        exact ⟨given, here ▸ member⟩
    · cases left
  · intro called
    obtain ⟨given, member⟩ := called
    have answered : (resultAt calls position).isSome = true :=
      List.findSome?_isSome_iff.mpr ⟨_, member, by simp [Call.result?]⟩
    obtain ⟨other, found⟩ := Option.isSome_iff_exists.mp answered
    -- Only one call on the way up is made there.
    obtain ⟨⟨place, call⟩, otherMember, left⟩ := List.exists_of_findSome?_eq_some found
    split at left
    · rename_i here
      cases call with
      | down node visit => cases left
      | up otherGiven result =>
        obtain rfl : result = some other := left
        obtain rfl : place = position := here
        have same := ascending.eq_of_rank member otherMember rfl
        simp only [Prod.mk.injEq, Call.up.injEq, Option.some.injEq, true_and] at same
        rw [found, same.2]
    · cases left

end Sexpr
