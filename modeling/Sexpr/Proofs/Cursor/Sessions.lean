import Sexpr.Proofs.Cursor.Work

/-! Sessions with a cursor: the nodes that the requests have removed so far and those that are left are
always the nodes that the cursor began with. -/

namespace Sexpr.Cursor

/-- A request with what it came to, between the cursors before and after it. -/
structure Call where
  before : Cursor
  request : Request
  outcome : Except Failure Reply
  after : Cursor

namespace Call

/-- The nodes that a call removed, told by how it ended: the front node where a pop has taken something. -/
def removed (call : Call) : List Node :=
  match call.request, call.outcome with
  | .peekFront, _ | .frontIsList, _ | .assertEmpty _, _ => []
  -- A pop that fails or finds nothing has removed nothing.
  | _, .error _ | _, .ok .nothing => []
  | _, .ok _ => call.before.front?.toList

/-- That a call ended as its request has to, and that the steps for the request end in the same way. -/
structure Fair (call : Call) : Prop where
  handled : call.before.Handled call.request call.outcome call.after
  stepwise : Work.runOn (Work.perform call.request) call.before = (call.outcome, call.after)

end Call

/-- Answers a request. -/
def call (cursor : Cursor) (request : Request) : Call where
  before := cursor
  request := request
  outcome := (settle cursor (cursor.answer request)).1
  after := (settle cursor (cursor.answer request)).2

/-- The calls for requests one after another, whether or not they fail, and the cursor that is left. -/
def serve (cursor : Cursor) : List Request → List Call × Cursor
  | [] => ([], cursor)
  | request :: requests =>
    let first := cursor.call request
    let (calls, last) := first.after.serve requests
    (first :: calls, last)

/-- The answer to a request is what it asks for, and the steps for it come to that answer. -/
theorem call_fair (cursor : Cursor) (request : Request) : (cursor.call request).Fair where
  -- The answer to a request is one lemma, and that the program's steps come to it is the other.
  handled := answers_answer cursor request
  stepwise := Work.does_perform request cursor

/-- Where a pop has taken something the call has removed the front node. -/
theorem Request.Takes.removed {call : Call} {place : List Nat} {front : Node} {reply : Reply}
    (takes : call.request.Takes place front reply) (ended : call.outcome = .ok reply)
    (inFront : call.before.front? = some front) : call.removed = [front] := by
  -- Only a pop takes anything, and what it takes is something.
  obtain ⟨before, request, outcome, after⟩ := call
  subst ended
  simp only [Call.removed, inFront, Option.toList_some]
  cases takes with
  | front => rfl
  | pop gets => cases gets <;> rfl
  | maybePop gets => cases gets <;> rfl

/-- A call that ended as it has to splits off what it removed, and keeps the position of the list. -/
theorem Call.Fair.splits {call : Call} (fair : call.Fair) :
    call.removed ++ call.after.nodes = call.before.nodes ∧ call.after.anchor = call.before.anchor := by
  -- Only a request that takes something removes a node, and then it is the front one.
  obtain ⟨handled, -⟩ := fair
  generalize ended : call.outcome = outcome at handled
  generalize asked : call.request = request at handled
  generalize left : call.after = after at handled
  cases handled with
  | @taken _ _ _ _ nodes anchor _ takes =>
    subst asked left
    rw [takes.removed ended (congrArg List.head? nodes), nodes]
    exact ⟨rfl, anchor⟩
  -- Whatever else has come of the request, nothing is removed and the cursor is the same.
  | passed => simp [removed, asked, ended]
  | peeked => simp [removed, asked]
  | looked => simp [removed, asked]
  | checked => simp [removed, asked]
  | refused => cases request <;> simp [removed, asked, ended]

/-- That the nodes removed by some calls and those left are the nodes of the cursor at the start, and that
the position of the list is still the same. -/
def Conserves (start : Cursor) (calls : List Call) (left : Cursor) : Prop :=
  calls.flatMap Call.removed ++ left.nodes = start.nodes ∧ left.anchor = start.anchor

theorem Conserves.behind {start last : Cursor} {first : Call} {calls : List Call}
    (conserves : Conserves first.after calls last) (fair : first.Fair) (begins : first.before = start) :
    Conserves start (first :: calls) last := by
  -- The first call splits its nodes into what it removed and what it left.
  obtain ⟨nodes, anchor⟩ := fair.splits
  subst begins
  refine ⟨?_, conserves.2.trans anchor⟩
  rw [List.flatMap_cons, List.append_assoc, conserves.1, nodes]

/-- Every list can be opened as a cursor over its children, and whatever is asked of a cursor, one request
after another, each one is handled, step by step as well: at every point the nodes removed so far and those
left are the nodes that the cursor began with, at the position of the same list. -/
theorem sessions_conserve :
    (∀ (children : List Node) (tokens : List Token) (label : String) (place : List Nat),
      ∃ start, ofNode (.list children tokens) label place = .ok start ∧ start.nodes = children ∧
        start.anchor = (Node.list children tokens).location) ∧
    ∀ (start : Cursor) (requests : List Request),
      (start.serve requests).1.map Call.request = requests ∧
        (∀ earlier call later, (start.serve requests).1 = earlier ++ call :: later →
          call.Fair ∧ Conserves start earlier call.before) ∧
        Conserves start (start.serve requests).1 (start.serve requests).2 := by
  -- The induction is on the requests, with the cursor left open.
  refine ⟨fun _ _ _ _ => ⟨_, rfl, rfl, rfl⟩, fun start requests => ?_⟩
  induction requests generalizing start with
  | nil =>
    refine ⟨rfl, fun earlier call later split => ?_, rfl, rfl⟩
    cases earlier <;> cases split
  | cons request requests ih =>
    -- What the later calls conserve of the cursor after the first one, all of them do of the start.
    obtain ⟨served, before, final⟩ := ih (start.call request).after
    have fair := call_fair start request
    refine ⟨congrArg _ served, fun earlier call later split => ?_, final.behind fair rfl⟩
    cases earlier with
    | nil =>
      cases split
      exact ⟨fair, rfl, rfl⟩
    | cons first earlier =>
      obtain ⟨rfl, tail⟩ := List.cons.inj split
      obtain ⟨inner, conserves⟩ := before earlier call later tail
      exact ⟨inner, conserves.behind fair rfl⟩

/-- Asked for an integer, a cursor keeps what is not a number; it is still there to be taken as a number. -/
example : let nan : Node := .atom (.number (.quiet false))
    let (calls, last) := serve ⟨[nan], {}, [0]⟩ [.pop .integer "a", .maybePop .integer "b", .popFront "c"]
    (calls.map fun call => call.removed.length) = [0, 0, 1] ∧ last.nodes.length = 0 := by decide

end Sexpr.Cursor
