import Sexpr.Proofs.Node.Rewriting
import Sexpr.Proofs.Node.Walks

/-! The law of walks: a walk makes the calls that it owes, whatever effects they have, and leaves what they come
to. -/

namespace Sexpr

variable {σ α β : Type}

/-- A computation that also notes its call, with what it is answered. -/
def recorded (call : α → Call) (ask : StateM σ α) : StateM (σ × List Call) α := fun noted =>
  ((ask noted.1).1, (ask noted.1).2, noted.2 ++ [call (ask noted.1).1])

/-- The calls on the way down, noted. -/
def recordedDown (before : Node → StateM σ Visit) (node : Node) : StateM (σ × List Call) Visit :=
  recorded (.down node) (before node)

/-- The calls on the way up, noted. -/
def recordedUp (after : Node → StateM σ (Option Node)) (node : Node) : StateM (σ × List Call) (Option Node) :=
  recorded (.up node) (after node)

/-- A run from a state, and the same run with its calls noted. -/
structure Records (plain : StateM σ α) (recording : StateM (σ × List Call) α) (start : σ) (answer : α)
    (final : σ) (calls : List Call) : Prop where
  runs : plain start = (answer, final)
  notes : ∀ log, recording (start, log) = (answer, final, log ++ calls)

namespace Records

theorem pure (answer : α) (start : σ) : Records (Pure.pure answer) (Pure.pure answer) start answer start [] :=
  ⟨rfl, fun log => by rw [List.append_nil]; rfl⟩

theorem down (before : Node → StateM σ Visit) (node : Node) (start : σ) :
    Records (before node) (recordedDown before node) start (before node start).1 (before node start).2
      [.down node (before node start).1] :=
  -- The call notes itself and its answer.
  ⟨rfl, fun _ => rfl⟩

theorem up (after : Node → StateM σ (Option Node)) (node : Node) (start : σ) :
    Records (after node) (recordedUp after node) start (after node start).1 (after node start).2
      [.up node (after node start).1] :=
  ⟨rfl, fun _ => rfl⟩

/-- Runs one after the other note their calls one after the other. -/
theorem bind {plain : StateM σ α} {recording : StateM (σ × List Call) α} {next : α → StateM σ β}
    {recordingNext : α → StateM (σ × List Call) β} {start middle final : σ} {answer : α} {result : β}
    {calls more : List Call} (first : Records plain recording start answer middle calls)
    (second : Records (next answer) (recordingNext answer) middle result final more) :
    Records (plain >>= next) (recording >>= recordingNext) start result final (calls ++ more) where
  -- The second run starts with the answer and the state of the first one, whether calls are noted or not.
  runs := by
    change (fun asked : α × σ => next asked.1 asked.2) (plain start) = _
    rw [first.runs]
    exact second.runs
  notes := by
    intro log
    change (fun asked : α × σ × List Call => recordingNext asked.1 asked.2) (recording (start, log)) = _
    rw [first.notes, ← List.append_assoc]
    exact second.notes (log ++ calls)

end Records

namespace Node

section Steps

variable {m : Type → Type} [Monad m] (inside : List Node → m (List Node)) (before : Node → m Visit)
  (after : Node → m (Option Node))

/-- Makes the call on the way up, unless the node was dropped. -/
def leave : Option Node → m (Option Node)
  | none => pure none
  | some given => after given

/-- What a walk does with a node when it was answered on the way down. -/
def proceed : Node → Visit → m (Option Node)
  | list children tokens, .keep .descend => do
    let kept ← transformAllWith inside before after children
    after (list kept tokens)
  | list _ _, .replace (list others ends) .descend => do
    let kept ← inside others
    after (list kept ends)
  | node, visit => leave after (visit.given node)

/-- A walk makes the call on the way down and goes on as that was answered. -/
theorem transformWith_eq (node : Node) :
    transformWith inside before after node = before node >>= proceed inside before after node := by
  -- What follows the call is read off answer by answer.
  cases node with
  | atom value tokens =>
    rw [transformWith]
    congr 1
    funext visit
    cases visit <;> rfl
  | list children tokens =>
    rw [transformWith]
    congr 1
    funext visit
    rcases visit with _ | ⟨_ | _⟩ | ⟨_ | _, _ | _⟩ <;> rfl

/-- A walk that is done with the children of a node leaves it at once. -/
theorem proceed_of_stays {node : Node} {visit : Visit} (settles : visit.Settles node)
    (stays : node.isAtom = true ∨ visit ≠ .keep .descend) :
    proceed inside before after node visit = leave after (visit.given node) := by
  -- The case is the answer on the way down. Whatever it settles to, the walk does not enter.
  cases node with
  | atom value tokens => rfl
  | list children tokens =>
    rcases visit with _ | ⟨_ | _⟩ | ⟨other, _ | _⟩
    · rfl
    · simp [isAtom, is, kind] at stays
    · rfl
    · simp [Visit.Settles, isAtom, is, kind] at settles
    · cases other <;> rfl

end Steps

variable {before : Node → StateM σ Visit} {after : Node → StateM σ (Option Node)}
  {inside : List Node → StateM σ (List Node)}
  {insideRecorded : List Node → StateM (σ × List Call) (List Node)}

/-- Whether the walk over a node runs from a state as one that has its calls at their positions, noted or not. -/
def Walks (before : Node → StateM σ Visit) (after : Node → StateM σ (Option Node))
    (inside : List Node → StateM σ (List Node))
    (insideRecorded : List Node → StateM (σ × List Call) (List Node)) (node : Node) (start : σ) : Prop :=
  ∃ (walk : Walk) (final : σ), walk.node = node ∧
    Records (transformWith inside before after node)
      (transformWith insideRecorded (recordedDown before) (recordedUp after) node)
      start walk.result final (walk.calls.map Prod.snd)

/-- Leaving a node is one call at most. -/
theorem records_leave (after : Node → StateM σ (Option Node)) (given : Option Node) (start : σ) :
    ∃ result final, Records (leave after given) (leave (recordedUp after) given) start
      (given.bind fun _ => result) final (given.toList.map fun given => .up given result) := by
  -- A node that was dropped is not called for again.
  cases given with
  | none => exact ⟨none, start, .pure none start⟩
  | some given => exact ⟨_, _, .up after given start⟩

/-- A node is walked over if the walk does not go on to its children. -/
theorem walks_of_stays {node : Node} {start : σ} (settles : (before node start).1.Settles node)
    (stays : node.isAtom = true ∨ (before node start).1 ≠ .keep .descend) :
    Walks before after inside insideRecorded node start := by
  -- Behind the call on the way down there is only the one on the way up, if there is any.
  obtain ⟨result, final, left⟩ :=
    records_leave after ((before node start).1.given node) (before node start).2
  refine ⟨.own node (before node start).1 result stays, final, rfl, ?_⟩
  rw [transformWith_eq, transformWith_eq, Walk.result_own, Walk.calls_own]
  refine (Records.down before node start).bind ?_
  rw [proceed_of_stays _ _ _ settles stays, proceed_of_stays _ _ _ settles stays]
  exact left

/-- A row of nodes is walked over one by one, if each of them is. -/
theorem walks_row {nodes : List Node}
    (each : ∀ node ∈ nodes, ∀ start, Walks before after inside insideRecorded node start) (start : σ) :
    ∃ (walks : List Walk) (final : σ), walks.map Walk.node = nodes ∧
      Records (transformAllWith inside before after nodes)
        (transformAllWith insideRecorded (recordedDown before) (recordedUp after) nodes) start
        (walks.filterMap Walk.result) final (walks.flatMap (·.calls.map Prod.snd)) := by
  -- The induction is on the row, which is entered in the state where the node before it has left off.
  induction nodes generalizing start with
  | nil => exact ⟨[], start, rfl, .pure [] start⟩
  | cons node nodes ih =>
    obtain ⟨walk, middle, ofFirst, first⟩ := each node List.mem_cons_self start
    obtain ⟨walks, final, ofOthers, others⟩ :=
      ih (fun other member => each other (List.mem_cons_of_mem node member)) middle
    refine ⟨walk :: walks, final, by rw [List.map_cons, ofFirst, ofOthers], ?_⟩
    rw [transformAllWith, transformAllWith, List.filterMap_cons, List.flatMap_cons]
    refine first.bind ?_
    -- What is left of the first node stands in front of what is left of the others.
    cases walk.result with
    | none => exact others
    | some kept =>
      rw [← List.append_nil (walks.flatMap _)]
      exact others.bind (.pure (kept :: walks.filterMap Walk.result) final)

theorem isAtom_atom (value : Atom) (tokens : List Token) : (atom value tokens).isAtom = true := by
  -- No variant of an atom is that of a list.
  cases value <;> rfl

/-- Every node is walked over, by induction on the node. -/
theorem walks (settles : ∀ node state, (before node state).1.Settles node) (node : Node) (start : σ) :
    Walks before after inside insideRecorded node start := by
  -- The induction is on the node, with the state left open.
  induction node generalizing start with
  | atom value tokens => exact walks_of_stays (settles _ start) (Or.inl (isAtom_atom value tokens))
  | list children tokens ih =>
    by_cases entered : (before (list children tokens) start).1 = .keep .descend
    · -- The children are walked over between the two calls for the list.
      obtain ⟨walks, middle, rfl, row⟩ := walks_row ih (before (list children tokens) start).2
      obtain ⟨result, final, closed⟩ :=
        records_leave after (some (list (walks.filterMap Walk.result) tokens)) middle
      refine ⟨.entered walks tokens result, final, rfl, ?_⟩
      rw [transformWith_eq, transformWith_eq, Walk.result_entered, Walk.calls_entered, ← entered]
      refine (Records.down before (list (walks.map Walk.node) tokens) start).bind ?_
      rw [entered]
      exact row.bind closed
    · exact walks_of_stays (settles _ start) (Or.inr entered)

section Keep

variable {m : Type → Type} [Monad m] [LawfulMonad m] (untouched : List Node → m (List Node))

/-- A walk that has nothing to do leaves a row as it is, if that is so of each of its nodes. -/
theorem transformAllWith_keep {nodes : List Node}
    (each : ∀ node ∈ nodes, transformWith untouched (fun _ => pure (.keep .descend))
      (fun node => pure (some node)) node = pure (some node)) :
    transformAllWith untouched (fun _ => pure (.keep .descend)) (fun node => pure (some node)) nodes =
      pure nodes := by
  induction nodes with
  | nil => rfl
  | cons node nodes ih =>
    -- The first node stays, and it stands in front of the others, which stay as well.
    obtain ⟨first, others⟩ := List.forall_mem_cons.mp each
    rw [transformAllWith, first, pure_bind]
    simp only [ih others, pure_bind]

/-- A walk that has nothing to do leaves a node as it is. -/
theorem transformWith_keep (node : Node) :
    transformWith untouched (fun _ => pure (.keep .descend)) (fun node => pure (some node)) node =
      pure (some node) := by
  -- By induction no child is left out, so a list is put together from the same children.
  induction node with
  | atom value tokens => rw [transformWith, pure_bind]
  | list children tokens ih =>
    rw [transformWith, pure_bind]
    simp only [transformAllWith_keep untouched ih, pure_bind]

end Keep

/-- The law of walks. A walk over any tree, with calls that may depend on all calls before, makes calls that nest as
the nodes do, at the nodes that it owes them and with the arguments that it owes them, and it leaves what the call on
the way up answered at the root. With nothing to do, it leaves the tree as it is. -/
theorem transform_calls (limit : Nat) (before : Node → StateM σ Visit) (after : Node → StateM σ (Option Node))
    (settles : ∀ node state, (before node state).1.Settles node) (node : Node) (start : σ) :
    (∃ (calls : List Placed) (final : σ),
      transform limit before after node start = (resultAt calls [], final) ∧
      transform limit (recordedDown before) (recordedUp after) node (start, []) =
        (resultAt calls [], final, calls.map Prod.snd) ∧
      WellNested calls ∧ Covered node calls) ∧
    transform (m := StateM σ) limit (fun _ => pure (.keep .descend)) (fun node => pure (some node)) node =
      pure (some node) := by
  -- The identity is one fact, and the calls of any other walk are those of a walk that is put together node by
  -- node.
  refine ⟨?_, transformWith_keep _ node⟩
  -- The calls of the walk are in order and complete, and they are those that the run notes.
  obtain ⟨walk, final, rfl, run⟩ := walks settles node start
  exact ⟨walk.calls, final, run.runs, run.notes [], walk.ascending.wellNested, walk.covered⟩

/-- A visit that depends on how many there were before. It goes into the first node, drops the second one, replaces
the third one and stops at all others. -/
def visitByTurn (node : Node) : StateM Nat Visit := fun turn =>
  (match turn with
    | 0 => .keep .descend
    | 1 => .drop
    | 2 => .replace (.list [node]) .stop
    | _ => .keep .stop, turn + 1)

/-- Such visits drop the first child of a list, replace the second one and keep the third one unvisited. -/
theorem transform_calls_byTurn :
    (∀ node state, (visitByTurn node state).1.Settles node) ∧
    let leaf := atom (.bool true)
    let tree := list [leaf, list [leaf], list [leaf, leaf]]
    ∃ calls : List Placed, calls.map Prod.snd =
        [.down tree (.keep .descend), .down leaf .drop,
          .down (list [leaf]) (.replace (list [list [leaf]]) .stop),
          .up (list [list [leaf]]) (some (list [list [leaf]])),
          .down (list [leaf, leaf]) (.keep .stop), .up (list [leaf, leaf]) (some (list [leaf, leaf])),
          .up (list [list [list [leaf]], list [leaf, leaf]])
            (some (list [list [list [leaf]], list [leaf, leaf]]))] ∧
      WellNested calls ∧ Covered tree calls := by
  -- The answers depend on the turn only, and each of them settles.
  have settles : ∀ node state, (visitByTurn node state).1.Settles node := by
    intro node turn
    rcases turn with _ | _ | _ | turn <;> exact True.intro
  refine ⟨settles, ?_⟩
  intro leaf tree
  obtain ⟨⟨calls, final, -, notes, nested, covered⟩, -⟩ :=
    transform_calls 0 visitByTurn (fun node => pure (some node)) settles tree 0
  -- What the run notes is evaluated, and the calls are the same ones with their positions.
  exact ⟨calls, (congrArg (·.2.2) notes).symm, nested, covered⟩

end Node

end Sexpr
