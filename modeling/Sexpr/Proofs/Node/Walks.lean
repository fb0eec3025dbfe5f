import Sexpr.Proofs.Node.Calls

/-! Walks as rows of calls: which nodes of a tree are owed one, what each is handed, and how the walks over the
children of a list make one over the list. -/

namespace Sexpr

/-- The node at a position in a tree. -/
def Node.descendant? : Node → List Nat → Option Node
  | node, [] => some node
  | node, index :: position =>
    (node.children?.getD [])[index]?.bind fun child => child.descendant? position

namespace Visit

/-- The node that goes on the way up, if it is not dropped and its children are not visited. -/
def given (node : Node) : Visit → Option Node
  | drop => none
  | keep _ => some node
  | replace other _ => some other

/-- Whether no walk over a replacement follows: what replaces a list is not descended into. -/
def Settles (node : Node) : Visit → Prop
  | drop | keep _ | replace _ .stop => True
  | replace _ .descend => node.isAtom = true

end Visit

/-- What the call on the way up gets, as the call on the way down was answered. A list whose children were visited
has in their places what was left of them, and keeps its tokens. -/
def handed (calls : List Placed) (position : List Nat) : Node → Visit → Option Node
  | .list children tokens, .keep .descend =>
    some (.list ((List.range children.length).filterMap fun index =>
      resultAt calls (position ++ [index])) tokens)
  | node, visit => visit.given node

/-- Whether no node above a position was dropped, stopped at or replaced. -/
def Unblocked (calls : List Placed) (position : List Nat) : Prop :=
  ∀ above visited visit, (above, Call.down visited visit) ∈ calls → above <+: position →
    above ≠ position → visit = .keep .descend

/-- The calls that a walk over a tree owes. On the way down they are for the nodes of which no ancestor was
dropped, stopped at or replaced; on the way up they are for those of them that were not dropped themselves. -/
structure Covered (node : Node) (calls : List Placed) : Prop where
  visited : ∀ position visited visit, (position, Call.down visited visit) ∈ calls →
    node.descendant? position = some visited
  reached : ∀ position, (∃ visited visit, (position, Call.down visited visit) ∈ calls) ↔
    (node.descendant? position).isSome ∧ Unblocked calls position
  answered : ∀ position, (∃ given result, (position, Call.up given result) ∈ calls) ↔
    ∃ visited visit, (position, Call.down visited visit) ∈ calls ∧ visit ≠ .drop
  argument : ∀ position given result, (position, Call.up given result) ∈ calls →
    ∃ visited visit, (position, Call.down visited visit) ∈ calls ∧
      handed calls position visited visit = some given

/-- The calls of a walk over a node, in their order. -/
structure Walk where
  node : Node
  calls : List Placed
  ascending : Ascending calls
  covered : Covered node calls

/-- What a walk leaves of its node. -/
def Walk.result (walk : Walk) : Option Node := resultAt walk.calls []

/-- The calls for a node whose children are not visited. -/
def ownCalls (node : Node) (visit : Visit) (result : Option Node) : List Placed :=
  ([], .down node visit) :: (visit.given node).toList.map fun given => ([], .up given result)

/-- A call on the way up gets what the visit gave, unless the children of a list were visited. -/
theorem handed_of_stays {node : Node} {visit : Visit} (stays : node.isAtom = true ∨ visit ≠ .keep .descend)
    (calls : List Placed) (position : List Nat) : handed calls position node visit = visit.given node := by
  -- Of all answers only one sends the walk to the children, and that one is excluded for a list.
  cases node with
  | atom value tokens => rfl
  | list children tokens =>
    cases visit with
    | drop => rfl
    | replace other descent => rfl
    | keep descent =>
      cases descent with
      | stop => rfl
      | descend => simp [Node.isAtom, Node.is, Node.kind] at stays

theorem unblocked_nil (calls : List Placed) : Unblocked calls [] :=
  -- Nothing stands above the top.
  fun _ _ _ _ inside other => absurd (List.prefix_nil.mp inside) other

section Own

variable {node : Node} {visit : Visit} {result : Option Node}

theorem mem_ownCalls_down {position : List Nat} {visited : Node} {answer : Visit} :
    (position, Call.down visited answer) ∈ ownCalls node visit result ↔
      position = [] ∧ visited = node ∧ answer = visit := by
  -- One call on the way down is made, for the node itself.
  simp [ownCalls]

theorem mem_ownCalls_up {position : List Nat} {given : Node} {answer : Option Node} :
    (position, Call.up given answer) ∈ ownCalls node visit result ↔
      position = [] ∧ visit.given node = some given ∧ answer = result := by
  -- One call on the way up is made, unless the node was dropped.
  cases gives : visit.given node <;> simp [ownCalls, gives, eq_comm]

theorem ascending_ownCalls : Ascending (ownCalls node visit result) := by
  -- There are two calls at most, and the one on the way up ranks higher.
  cases gives : visit.given node with
  | none => simp [ownCalls, gives, Ascending]
  | some given => simp [ownCalls, gives, Ascending, Placed.rank, Call.isUp]

/-- A walk that does not go on to the children of its node owes nothing below it. -/
theorem covered_ownCalls (stays : node.isAtom = true ∨ visit ≠ .keep .descend) :
    Covered node (ownCalls node visit result) where
  -- All calls are for the node itself, so only the positions below it need an argument.
  visited := by
    intro position visited answer called
    obtain ⟨rfl, rfl, -⟩ := mem_ownCalls_down.mp called
    rfl
  reached := by
    intro position
    simp only [mem_ownCalls_down]
    constructor
    · intro called
      obtain ⟨_, _, rfl, -, -⟩ := called
      exact ⟨rfl, unblocked_nil _⟩
    · intro owed
      obtain ⟨found, unblocked⟩ := owed
      cases position with
      | nil => exact ⟨node, visit, rfl, rfl, rfl⟩
      | cons index position =>
        -- A node with descendants is a list, and the walk goes no further.
        have entered := unblocked [] node visit (mem_ownCalls_down.mpr ⟨rfl, rfl, rfl⟩) List.nil_prefix
          (List.cons_ne_nil _ _).symm
        cases node with
        | atom value tokens => simp [Node.descendant?, Node.children?] at found
        | list children tokens => simp [Node.isAtom, Node.is, Node.kind, entered] at stays
  answered := by
    intro position
    simp only [mem_ownCalls_up, mem_ownCalls_down]
    cases visit <;> simp [Visit.given]
  argument := by
    intro position given answer called
    obtain ⟨rfl, gives, -⟩ := mem_ownCalls_up.mp called
    exact ⟨node, visit, mem_ownCalls_down.mpr ⟨rfl, rfl, rfl⟩, by rw [handed_of_stays stays, gives]⟩

end Own

/-- What is left at a position below a list is what the walk over the child left there. -/
theorem resultAt_listCalls {down up : Call} {children : List (List Placed)}
    (ascending : Ascending (listCalls down up children)) (each : ∀ calls ∈ children, Ascending calls)
    (index : Nat) (position : List Nat) :
    resultAt (listCalls down up children) (index :: position) =
      children[index]?.bind fun calls => resultAt calls position := by
  -- Both sides leave what some call on the way up answered, and such calls are the same.
  refine Option.ext fun kept => ?_
  rw [resultAt_eq_some_iff ascending, Option.bind_eq_some_iff]
  simp only [mem_listCalls_cons]
  constructor
  · intro left
    obtain ⟨given, calls, found, called⟩ := left
    exact ⟨calls, found, (resultAt_eq_some_iff (each calls (List.mem_of_getElem? found))).mpr
      ⟨given, called⟩⟩
  · intro left
    obtain ⟨calls, found, kept⟩ := left
    obtain ⟨given, called⟩ := (resultAt_eq_some_iff (each calls (List.mem_of_getElem? found))).mp kept
    exact ⟨given, calls, found, called⟩

/-- What is picked from a row index by index is picked from its members in order. -/
theorem filterMap_range_getElem? {α β : Type} (row : List α) (pick : α → Option β) :
    ((List.range row.length).filterMap fun index => row[index]?.bind pick) = row.filterMap pick := by
  induction row with
  | nil => rfl
  | cons first others ih =>
    -- Behind the first index each one is that of the other members, moved by one.
    rw [List.length_cons, List.range_succ_eq_map, List.filterMap_cons, List.filterMap_map,
      List.filterMap_cons, ← ih]
    rfl

section Entered

variable (walks : List Walk) (tokens : List Token) (result : Option Node)

/-- The calls for a list whose children are visited, from the walks over these. -/
def enteredCalls : List Placed :=
  listCalls (.down (.list (walks.map Walk.node) tokens) (.keep .descend))
    (.up (.list (walks.filterMap Walk.result) tokens) result) (walks.map Walk.calls)

variable {walks tokens result}

theorem mem_enteredCalls_cons {index : Nat} {position : List Nat} {call : Call} :
    (index :: position, call) ∈ enteredCalls walks tokens result ↔
      ∃ walk, walks[index]? = some walk ∧ (position, call) ∈ walk.calls := by
  -- A call below the list is one of the walk over the child at its index.
  rw [enteredCalls, mem_listCalls_cons, List.getElem?_map]
  simp [Option.map_eq_some_iff]

theorem ascending_enteredCalls : Ascending (enteredCalls walks tokens result) := by
  -- The calls of every child are in order, as its walk has them.
  refine ascending_listCalls rfl rfl fun calls member => ?_
  obtain ⟨walk, -, rfl⟩ := List.mem_map.mp member
  exact walk.ascending

theorem resultAt_enteredCalls (index : Nat) (position : List Nat) :
    resultAt (enteredCalls walks tokens result) (index :: position) =
      walks[index]?.bind fun walk => resultAt walk.calls position := by
  -- A result below the list is that of the walk over the child at its index.
  rw [enteredCalls, resultAt_listCalls ascending_enteredCalls fun calls member => ?_,
    List.getElem?_map, Option.bind_map]
  · rfl
  · obtain ⟨walk, -, rfl⟩ := List.mem_map.mp member
    exact walk.ascending

/-- Below the list a call on the way up gets what it got from the walk over the child. -/
theorem handed_enteredCalls {index : Nat} {walk : Walk} (found : walks[index]? = some walk)
    (position : List Nat) (node : Node) (visit : Visit) :
    handed (enteredCalls walks tokens result) (index :: position) node visit =
      handed walk.calls position node visit := by
  -- What was left of the children of that node is asked for below the same index.
  have same (place : List Nat) : resultAt (enteredCalls walks tokens result) (index :: place) =
      resultAt walk.calls place := by
    rw [resultAt_enteredCalls, found, Option.bind_some]
  simp only [handed, List.cons_append, same]

theorem descendant?_walks (index : Nat) (position : List Nat) :
    (Node.list (walks.map Walk.node) tokens).descendant? (index :: position) =
      walks[index]?.bind fun walk => walk.node.descendant? position := by
  -- A descendant of the list is one of the child at its index.
  simp only [Node.descendant?, Node.children?, Option.getD_some, List.getElem?_map, Option.bind_map]
  rfl

/-- Nodes above one below the list are the list itself, which was kept, and those within the child. -/
theorem unblocked_enteredCalls {index : Nat} {walk : Walk} (found : walks[index]? = some walk)
    (position : List Nat) : Unblocked (enteredCalls walks tokens result) (index :: position) ↔
      Unblocked walk.calls position := by
  -- The answers above the position are those within the child, and the one for the list.
  constructor
  · intro unblocked above visited visit called inside other
    exact unblocked (index :: above) visited visit (mem_enteredCalls_cons.mpr ⟨walk, found, called⟩)
      (List.cons_prefix_cons.mpr ⟨rfl, inside⟩) fun same => other (List.cons.inj same).2
  · intro unblocked above visited visit called inside other
    -- Only the call on the way down stands at the list itself with an answer, and that keeps it.
    cases above with
    | nil =>
      obtain ⟨⟨⟩⟩ | ⟨⟨⟩⟩ := mem_listCalls_nil.mp called
      rfl
    | cons aboveIndex above =>
      obtain ⟨sameIndex, within⟩ := List.cons_prefix_cons.mp inside
      subst sameIndex
      obtain ⟨sameWalk, sameFound, called⟩ := mem_enteredCalls_cons.mp called
      obtain rfl := Option.some.inj (found.symm.trans sameFound)
      exact unblocked above visited visit called within fun same => other (by rw [same])

/-- The walks over the children make one over the list. -/
theorem covered_enteredCalls :
    Covered (.list (walks.map Walk.node) tokens) (enteredCalls walks tokens result) where
  -- At the list itself stand its own two calls, and below it everything is known of the walk over the child.
  visited := by
    intro position visited visit called
    cases position with
    | nil =>
      obtain ⟨⟨⟩⟩ | ⟨⟨⟩⟩ := mem_listCalls_nil.mp called
      rfl
    | cons index position =>
      obtain ⟨walk, found, called⟩ := mem_enteredCalls_cons.mp called
      rw [descendant?_walks, found]
      exact walk.covered.visited position visited visit called
  reached := by
    intro position
    cases position with
    | nil =>
      exact iff_of_true ⟨_, _, mem_listCalls_nil.mpr (Or.inl rfl)⟩ ⟨rfl, unblocked_nil _⟩
    | cons index position =>
      -- A position below the list exists where there is a child with it, and is reached as it is there.
      rw [descendant?_walks]
      constructor
      · intro reached
        obtain ⟨visited, visit, called⟩ := reached
        obtain ⟨walk, found, called⟩ := mem_enteredCalls_cons.mp called
        rw [found, unblocked_enteredCalls found]
        exact (walk.covered.reached position).mp ⟨visited, visit, called⟩
      · intro owed
        obtain ⟨present, unblocked⟩ := owed
        obtain ⟨descendant, found⟩ := Option.isSome_iff_exists.mp present
        obtain ⟨walk, found, here⟩ := Option.bind_eq_some_iff.mp found
        rw [unblocked_enteredCalls found] at unblocked
        obtain ⟨visited, visit, called⟩ :=
          (walk.covered.reached position).mpr ⟨by rw [here]; rfl, unblocked⟩
        exact ⟨visited, visit, mem_enteredCalls_cons.mpr ⟨walk, found, called⟩⟩
  answered := by
    intro position
    cases position with
    | nil =>
      exact iff_of_true ⟨_, _, mem_listCalls_nil.mpr (Or.inr rfl)⟩
        ⟨_, _, mem_listCalls_nil.mpr (Or.inl rfl), by simp⟩
    | cons index position =>
      simp only [mem_enteredCalls_cons]
      constructor
      · intro answered
        obtain ⟨given, kept, walk, found, called⟩ := answered
        obtain ⟨visited, visit, called, notDropped⟩ :=
          (walk.covered.answered position).mp ⟨given, kept, called⟩
        exact ⟨visited, visit, ⟨walk, found, called⟩, notDropped⟩
      · intro owed
        obtain ⟨visited, visit, ⟨walk, found, called⟩, notDropped⟩ := owed
        obtain ⟨given, kept, called⟩ :=
          (walk.covered.answered position).mpr ⟨visited, visit, called, notDropped⟩
        exact ⟨given, kept, walk, found, called⟩
  argument := by
    intro position given kept called
    cases position with
    | nil =>
      obtain ⟨⟨⟩⟩ | ⟨⟨⟩⟩ := mem_listCalls_nil.mp called
      refine ⟨_, _, mem_listCalls_nil.mpr (Or.inl rfl), ?_⟩
      -- What was left of the children is picked from the walks over them.
      simp only [handed, List.nil_append, resultAt_enteredCalls, List.length_map, filterMap_range_getElem?]
      rfl
    | cons index position =>
      obtain ⟨walk, found, called⟩ := mem_enteredCalls_cons.mp called
      obtain ⟨visited, visit, called, gives⟩ := walk.covered.argument position given kept called
      exact ⟨visited, visit, mem_enteredCalls_cons.mpr ⟨walk, found, called⟩,
        (handed_enteredCalls found position visited visit).trans gives⟩

end Entered

/-- A walk that does not go on to the children of its node. -/
def Walk.own (node : Node) (visit : Visit) (result : Option Node)
    (stays : node.isAtom = true ∨ visit ≠ .keep .descend) : Walk where
  node := node
  calls := ownCalls node visit result
  ascending := ascending_ownCalls
  covered := covered_ownCalls stays

/-- A walk that goes on to the children of a list. -/
def Walk.entered (walks : List Walk) (tokens : List Token) (result : Option Node) : Walk where
  node := .list (walks.map Walk.node) tokens
  calls := enteredCalls walks tokens result
  ascending := ascending_enteredCalls
  covered := covered_enteredCalls

/-- A walk that does not go on leaves what the call on the way up answered, if there was one. -/
theorem Walk.result_own {node : Node} {visit : Visit} {result : Option Node}
    (stays : node.isAtom = true ∨ visit ≠ .keep .descend) :
    (Walk.own node visit result stays).result = (visit.given node).bind fun _ => result := by
  -- The result is that of the call on the way up, which is made unless the node was dropped.
  refine Option.ext fun kept => ?_
  rw [Walk.result, resultAt_eq_some_iff (Walk.own node visit result stays).ascending]
  simp only [Walk.own, mem_ownCalls_up, true_and]
  cases visit.given node <;> simp [eq_comm]

theorem Walk.calls_own {node : Node} {visit : Visit} {result : Option Node}
    (stays : node.isAtom = true ∨ visit ≠ .keep .descend) :
    (Walk.own node visit result stays).calls.map Prod.snd =
      [.down node visit] ++ (visit.given node).toList.map fun given => .up given result := by
  -- Placing the calls at the top does not change them.
  change (ownCalls node visit result).map Prod.snd = _
  rw [ownCalls, List.map_cons, List.map_map]
  rfl

/-- A walk over the children of a list leaves what the call on the way up answered for the list. -/
theorem Walk.result_entered (walks : List Walk) (tokens : List Token) (result : Option Node) :
    (Walk.entered walks tokens result).result = result := by
  -- The call on the way up is the last one of the list.
  refine Option.ext fun kept => ?_
  rw [Walk.result, resultAt_eq_some_iff (Walk.entered walks tokens result).ascending]
  simp [Walk.entered, enteredCalls, mem_listCalls_nil, eq_comm]

/-- The calls for the children stand between the two for the list. -/
theorem Walk.calls_entered (walks : List Walk) (tokens : List Token) (result : Option Node) :
    (Walk.entered walks tokens result).calls.map Prod.snd =
      [.down (.list (walks.map Walk.node) tokens) (.keep .descend)] ++
        (walks.flatMap (·.calls.map Prod.snd) ++
          [.up (.list (walks.filterMap Walk.result) tokens) result]) := by
  -- Placing the calls does not change them, whether at the top or below it.
  change (enteredCalls walks tokens result).map Prod.snd = _
  rw [enteredCalls, listCalls, List.map_cons, List.map_append, map_snd_rowCalls, List.flatMap_map]
  rfl

end Sexpr
