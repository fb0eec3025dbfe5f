import Mathlib.Data.List.Forall2
import Sexpr.Proofs.Node.Unbalanced

/-! Where the nodes of a forest begin among its tokens: exactly at those outside of all lists. -/

namespace Sexpr

/-- The positions of the tokens outside of all lists: in front of them as many lists are closed as are opened. -/
def outermost (tokens : List Token) : List Nat :=
  (List.range tokens.length).filter fun position =>
    opens (tokens.take position) == closes (tokens.take position)

variable {tokens : List Token} {position : Nat}

/-- A position is outermost if it is that of a token outside of all lists. -/
theorem mem_outermost : position ∈ outermost tokens ↔
    position < tokens.length ∧ opens (tokens.take position) = closes (tokens.take position) := by
  rw [outermost, List.mem_filter, List.mem_range, beq_iff_eq]

/-- The outermost positions are in order. -/
theorem pairwise_outermost (tokens : List Token) : (outermost tokens).Pairwise (· < ·) :=
  List.pairwise_lt_range.filter _

/-- Behind tokens that close as many lists as they open the outermost positions are those of the tokens that
follow. -/
theorem outermost_append (even : opens tokens = closes tokens) (rest : List Token) :
    outermost (tokens ++ rest) = outermost tokens ++ (outermost rest).map (tokens.length + ·) := by
  -- The positions of both rows are those of the first and, moved by its length, those of the second.
  rw [outermost, List.length_append, List.range_add, List.filter_append, List.filter_map]
  congr 1
  · -- In front of an earlier position stand only tokens of the first row.
    refine List.filter_congr fun position member => ?_
    rw [List.take_append_of_le_length (Nat.le_of_lt (List.mem_range.mp member))]
  · -- In front of a later one stands the whole first row, which does not count.
    refine congrArg (List.map _) (List.filter_congr fun position _ => ?_)
    rw [Bool.eq_iff_iff, Function.comp_apply, beq_iff_eq, beq_iff_eq, List.take_length_add_append,
      opens_append, closes_append]
    omega

/-- Of a list only the token that opens it is outside of all lists. -/
theorem outermost_list {opened closed : Token} {inner : List Token} (kind : opened.kind = .listOpen)
    (balanced : Balanced inner) : outermost (opened :: (inner ++ [closed])) = [0] := by
  -- The first position has nothing in front of it, so it is left to exclude the others.
  rw [outermost, List.length_cons, List.range_succ_eq_map, List.filter_cons_of_pos rfl, List.filter_map]
  refine congrArg (0 :: ·) ?_
  rw [List.map_eq_nil_iff, List.filter_eq_nil_iff]
  intro position member
  -- Any other position has the opened list in front of it, and behind that no list closed in excess.
  have within : position ≤ inner.length := by simpa [Nat.lt_succ_iff] using member
  have bound := balanced.opened (inner.take position) (List.take_prefix _ _)
  have one := opens_of_kind kind
  have single := opens_closes_le opened
  rw [Function.comp_apply, beq_iff_eq, List.take_succ_cons, List.take_append_of_le_length within, opens_cons,
    closes_cons]
  omega

/-- The tokens of a node begin at its only outermost position. -/
theorem outermost_flatten {node : Node} (owns : node.Owns) : outermost node.flatten = [0] := by
  -- An atom is one token, and a list is a pair of ends around balanced tokens.
  cases owns with
  | atom means => rfl
  | list opens closes all =>
    refine outermost_list ?_ (balanced_flattenAll all)
    rw [Token.kind, opens, Lexeme.kind]

/-- The tokens of the nodes of a forest begin at its outermost positions, one by one. -/
theorem forall₂_outermost {forest : List Node} (owns : ∀ node ∈ forest, node.Owns) :
    List.Forall₂ (fun node position => node.flatten <+: (flattenAll forest).drop position) forest
      (outermost (flattenAll forest)) := by
  -- The induction is on the nodes, each of which has even counts.
  induction forest with
  | nil => exact .nil
  | cons node forest ih =>
    obtain ⟨first, others⟩ := List.forall_mem_cons.mp owns
    have even : opens node.flatten = closes node.flatten := by
      simpa [flattenAll] using (@balanced_flattenAll [node] (List.forall_mem_singleton.mpr first)).even
    -- The first node begins the row, and the others are as far behind it as it is long.
    rw [flattenAll, outermost_append even, outermost_flatten first]
    refine .cons (List.prefix_append _ _) (List.forall₂_map_right_iff.mpr ((ih others).imp ?_))
    intro other position begins
    rwa [List.drop_length_add_append]

end Sexpr
