import Sexpr.Node.Access
import Sexpr.Proofs.Cursor.Answers

/-! Work on a cursor: the same requests as sequences of steps that change it, and that stay where they are
when one fails. They give the same replies and errors and leave the same nodes. -/

namespace Sexpr.Cursor

/-- Steps that change a cursor. A failure does not undo the steps before it. -/
abbrev Work (α : Type) := ExceptT Failure (StateM Cursor) α

namespace Work

/-- What work comes to, and the cursor that it leaves. -/
def runOn {α : Type} (work : Work α) (cursor : Cursor) : Except Failure α × Cursor := work cursor

/-- Looks at the front node. -/
def peek : Work (Option Node) := do return (← get).front?

/-- Takes the front node out, which has to be there. -/
def remove : Work Node := do
  let cursor ← get
  match cursor.nodes with
  | [] => throw .nothingLeft
  | front :: others =>
    set { cursor with nodes := others, place := nextPlace cursor.place }
    return front

/-- Fails with a message. -/
def refuse {α : Type} (message : String) (location : Location) : Work α :=
  throw (.error ⟨.cursor message, location⟩)

/-- Looking into a node as a step. -/
def look {α : Type} : Except Error α → Work α
  | .ok value => return value
  | .error error => throw (.error error)

/-- The integer next to a number on the side of zero. -/
def truncate : Binary64 → Work Int
  | .finite negative rank _ =>
    return Binary64.signed negative (Binary64.units rank / Nat.pow 2 Binary64.finest)
  | number => throw (.notFinite number)

/-- Takes the front node whatever it is. -/
def popFront (label : String) : Work Node := do
  if (← get).nodes.isEmpty then refuse ("Expected " ++ label) (← get).anchor else remove

/-- Takes the front node if it is of a variant. -/
def popKind (kind : NodeKind) (label : String) : Work Node := do
  match ← peek with
  | none => refuse ("Expected " ++ label) (← get).anchor
  | some front =>
    if front.kind = kind then remove else refuse ("Expected " ++ label) front.location

/-- Takes the value of an atom of a variant. -/
def popValue {α : Type} (kind : NodeKind) (view : Atom → Option α) (label : String) :
    Work (α × Location) := do
  let node ← popKind kind label
  return (← look (node.valueAs kind view), node.location)

/-- Refuses a front node that is a number with a fractional part, or not finite. -/
def assertIntegral (label : String) : Work Unit := do
  match ← peek with
  | none => return
  | some front =>
    if front.is .number then
      if (← look front.asNumber).isIntegral then return
      else refuse ("Expected an int for " ++ label) front.location

/-- Takes a number that equals an integer. -/
def popInteger (label : String) : Work (Int × Location) := do
  -- The number is looked at before it is taken, as a refusal comes too late afterwards.
  assertIntegral label
  let node ← popKind .number label
  return (← truncate (← look node.asNumber), node.location)

/-- Takes a list and opens a cursor over it. -/
def popList (label : String) : Work Cursor := do
  let place := (← get).innerPlace
  let node ← popKind .list label
  look (Cursor.ofNode node label place)

/-- Takes a value only if the front node passes a test, and otherwise takes nothing. -/
def maybe {α : Type} (matching : Node → Except Error Bool) (pop : String → Work α)
    (label : String) : Work (Option α) := do
  match ← peek with
  | none => return none
  | some front => if ← look (matching front) then return some (← pop label) else return none

/-- Refuses a cursor that has nodes left. -/
def assertEmpty (label : String) : Work Unit := do
  if let some front ← peek then refuse ("Expected no more values for " ++ label) front.location

/-- Takes what is wanted. -/
def take (label : String) : Want → Work Reply
  | .bool => Reply.ofAtom .bool <$> popValue .bool Atom.bool? label
  | .comment => Reply.ofAtom .comment <$> popValue .comment Atom.comment? label
  | .number => Reply.ofAtom .number <$> popValue .number Atom.number? label
  | .identifier => Reply.ofAtom .identifier <$> popValue .identifier Atom.identifier? label
  | .integer => Reply.ofInteger <$> popInteger label
  | .string => Reply.ofAtom .string <$> popValue .string Atom.string? label
  | .list => Reply.list <$> popList label

/-- The test that the front node is put to before it is taken for a want. -/
def matching (want : Want) (node : Node) : Except Error Bool :=
  if want = .integer then
    if node.is .number then node.asNumber.map Binary64.isIntegral else .ok false
  else .ok (node.is want.kind)

/-- The steps for a request. -/
def perform : Request → Work Reply
  | .popFront label => Reply.node <$> popFront label
  | .pop want label => take label want
  | .maybePop want label =>
    (Option.getD · .nothing) <$> maybe (matching want) (take · want) label
  | .peekFront => Reply.front <$> peek
  | .frontIsList => do return .truth ((← peek).any (·.is .list))
  | .assertEmpty label => (fun _ => Reply.done) <$> assertEmpty label

section Steps

variable {α β : Type} {work : Work α} {next : α → Work β} {cursor after : Cursor}

theorem runOn_bind_ok {value : α} (done : runOn work cursor = (.ok value, after)) :
    runOn (work >>= next) cursor = runOn (next value) after := by
  -- The next step begins with the value and the cursor that the first one leaves.
  unfold runOn at *
  simp only [Bind.bind, ExceptT.bind, ExceptT.mk, StateT.bind, done]
  rfl

theorem runOn_bind_error {failure : Failure} (failed : runOn work cursor = (.error failure, after)) :
    runOn (work >>= next) cursor = (.error failure, after) := by
  -- A failure ends the work, with the cursor as it then is.
  unfold runOn at *
  simp only [Bind.bind, ExceptT.bind, ExceptT.mk, StateT.bind, failed]
  rfl

theorem runOn_map (f : α → β) :
    runOn (f <$> work) cursor = ((runOn work cursor).1.map f, (runOn work cursor).2) := by
  -- The work ends with a value or a failure, and only a value is mapped.
  cases done : runOn work cursor with
  | mk outcome after =>
  cases outcome with
  | ok value => exact runOn_bind_ok done
  | error failure => exact runOn_bind_error done

end Steps

/-- That work comes to what is taken from the cursor, and leaves nothing else behind. -/
def Does {α : Type} (work : Work α) (taking : Cursor → Taken α) : Prop :=
  ∀ cursor, runOn work cursor = settle cursor (taking cursor)

theorem Does.replying {α : Type} {work : Work α} {taking : Cursor → Taken α}
    (does : Does work taking) (reply : α → Reply) :
    Does (reply <$> work) (fun cursor => Cursor.replying reply (taking cursor)) := by
  -- A reply is made from the value alone.
  intro cursor
  rw [runOn_map, does cursor]
  cases settled : taking cursor <;> simp only [settled] <;> rfl

/-- A front node of the variant is taken, and any other one refused. -/
theorem runOn_popKind (kind : NodeKind) (label : String) (front : Node) (others : List Node)
    (anchor : Location) (place : List Nat) :
    runOn (popKind kind label) ⟨front :: others, anchor, place⟩ =
      if front.kind = kind then (.ok front, rest ⟨front :: others, anchor, place⟩)
      else (.error (.error (missing label front.location)), ⟨front :: others, anchor, place⟩) := by
  -- With a node in front the step looks at its variant, and removes it or leaves it.
  change runOn (if front.kind = kind then remove else refuse _ _) _ = _
  split <;> rfl

theorem does_popFront (label : String) : Does (popFront label) (·.popFront label) := by
  rintro ⟨_ | ⟨front, others⟩, anchor, place⟩ <;> rfl

/-- Taking the value of an atom after checking its variant comes to taking it by a view. -/
theorem does_popValue {α : Type} {kind : NodeKind} {wrap : α → Atom} {view : Atom → Option α}
    (views : Views kind wrap view) (single : kind ≠ .list) (label : String) :
    Does (popValue kind view label) (·.popAs (fun node => node.atom?.bind view) label) := by
  -- There is a node in front or none, and if there is one its variant decides.
  rintro ⟨_ | ⟨front, others⟩, anchor, place⟩
  · rfl
  have kinds := runOn_popKind kind label front others anchor place
  by_cases fits : front.kind = kind
  · -- The node is gone when its value is looked at, which therefore must not fail.
    rw [if_pos fits] at kinds
    rw [popValue, runOn_bind_ok kinds]
    cases front with
    | list children tokens => exact absurd fits.symm single
    | atom value tokens =>
      obtain ⟨found, rfl⟩ := (views.kind_iff _).mp fits
      simp only [Node.valueAs, Node.atom?, Option.bind, views.found, popAs]
      rfl
  · -- The variant is checked first, so a node of another one is still there.
    rw [if_neg fits] at kinds
    rw [popValue, runOn_bind_error kinds]
    cases front with
    | list children tokens => rfl
    | atom value tokens =>
      simp only [popAs, Node.atom?, Option.bind, views.unseen fits]
      rfl

/-- A front node that is a number has to equal an integer. -/
theorem runOn_assertIntegral (label : String) (front : Node) (others : List Node)
    (anchor : Location) (place : List Nat) :
    runOn (assertIntegral label) ⟨front :: others, anchor, place⟩ =
      if (front.atom?.bind Atom.number?).all Binary64.isIntegral then
        (.ok (), ⟨front :: others, anchor, place⟩)
      else (.error (.error ⟨.cursor ("Expected an int for " ++ label), front.location⟩),
        ⟨front :: others, anchor, place⟩) := by
  -- The case is the node in front, and only a number can fail the check.
  cases front with
  | list children tokens => rfl
  | atom value tokens =>
    cases value with
    | number number =>
      change runOn (if number.isIntegral then _ else _) _ = if number.isIntegral then _ else _
      split <;> rfl
    | _ => rfl

/-- A number that equals an integer can be truncated. -/
theorem runOn_truncate {number : Binary64} {value : Int} (equals : number.toInt? = some value)
    (cursor : Cursor) : runOn (truncate number) cursor = (.ok value, cursor) := by
  -- Only a finite number has an integer.
  obtain ⟨negative, rank, inRange, rfl⟩ := Binary64.exists_finite (Binary64.isFinite_of_toInt? equals)
  simp only [Binary64.toInt?] at equals
  split at equals
  · cases equals
    rfl
  · cases equals

/-- Taking a number after checking that it equals an integer comes to taking that integer. -/
theorem does_popInteger (label : String) : Does (popInteger label) (·.popInteger label) := by
  -- The case is the node in front: a number with an integer to it, a number without one, or no number.
  rintro ⟨_ | ⟨front, others⟩, anchor, place⟩
  · rfl
  have checked := runOn_assertIntegral label front others anchor place
  have kinds := runOn_popKind .number label front others anchor place
  by_cases fits : front.kind = .number
  · rw [if_pos fits] at kinds
    cases front with
    | list children tokens => cases fits
    | atom value tokens =>
      obtain ⟨number, rfl⟩ := (views_number.kind_iff _).mp fits
      cases integer : number.toInt? with
      | none =>
        -- The check comes before the number is taken, and nothing after it is done.
        rw [if_neg (by simp [Node.atom?, Atom.number?, Binary64.isIntegral, integer])] at checked
        rw [popInteger, runOn_bind_error checked]
        simp only [Cursor.popInteger, popNumber, popAs, Node.atom?, Option.bind, Atom.number?, integer]
        rfl
      | some found =>
        -- The number is finite and has no fraction, so truncating it neither fails nor loses anything.
        rw [if_pos (by simp [Node.atom?, Atom.number?, Binary64.isIntegral, integer])] at checked
        rw [popInteger, runOn_bind_ok checked, runOn_bind_ok kinds]
        change runOn (truncate number >>= _) _ = _
        rw [runOn_bind_ok (runOn_truncate integer _)]
        simp only [Cursor.popInteger, popNumber, popAs, Node.atom?, Option.bind, Atom.number?, integer]
        rfl
  · -- What is no number passes the check, and is refused for its variant.
    rw [if_neg fits] at kinds
    cases front with
    | list children tokens =>
      rw [popInteger, runOn_bind_ok checked, runOn_bind_error kinds]
      rfl
    | atom value tokens =>
      rw [if_pos (by simp [Node.atom?, views_number.unseen fits])] at checked
      rw [popInteger, runOn_bind_ok checked, runOn_bind_error kinds]
      simp only [Cursor.popInteger, popNumber, popAs, Node.atom?, Option.bind, views_number.unseen fits]
      rfl

theorem does_popList (label : String) : Does (popList label) (·.popList label) := by
  -- The node in front is a list or an atom.
  rintro ⟨_ | ⟨front, others⟩, anchor, place⟩
  · rfl
  cases front with
  | list children tokens => rfl
  | atom value tokens => cases value <;> rfl

theorem does_take (label : String) (want : Want) : Does (take label want) (·.take label want) := by
  -- Five of the requests differ in their view only, and the other two are shown above.
  cases want with
  | bool => exact (does_popValue views_bool nofun label).replying _
  | comment => exact (does_popValue views_comment nofun label).replying _
  | number => exact (does_popValue views_number nofun label).replying _
  | identifier => exact (does_popValue views_identifier nofun label).replying _
  | integer => exact (does_popInteger label).replying _
  | string => exact (does_popValue views_string nofun label).replying _
  | list => exact (does_popList label).replying _

/-- The test that the front node is put to never fails. -/
theorem matching_eq (want : Want) (node : Node) : matching want node = .ok (want.test node) := by
  -- For an integer the test looks into the number, and otherwise at the variant.
  unfold matching Want.test
  split
  · cases node with
    | list children tokens => rfl
    | atom value tokens => cases value <;> rfl
  · rfl

/-- Testing the front node in a step before taking it comes to taking it only if it passes. -/
theorem does_takeIfFront (label : String) (want : Want) :
    Does ((Option.getD · .nothing) <$> maybe (matching want) (take · want) label)
      (·.takeIfFront label want) := by
  -- There is a node in front or none, and if there is one the test decides.
  rintro ⟨_ | ⟨front, others⟩, anchor, place⟩
  · change _ = settle _ (Cursor.takeIfFront _ label want)
    rw [takeIfFront_eq]
    rfl
  change _ = settle _ (Cursor.takeIfFront _ label want)
  rw [takeIfFront_eq, runOn_map]
  have tested : runOn (maybe (matching want) (take · want) label) ⟨front :: others, anchor, place⟩ =
      runOn (if want.test front then some <$> take label want else return none)
        ⟨front :: others, anchor, place⟩ := by
    -- The step with the test changes nothing, as it never fails.
    change runOn (look (matching want front) >>= _) _ = _
    rw [matching_eq]
    rfl
  rw [tested]
  cases passed : want.test front with
  | false =>
    simp only [front?, List.head?_cons, Option.any, passed]
    rfl
  | true =>
    simp only [front?, List.head?_cons, Option.any, passed, if_pos, runOn_map,
      does_take label want ⟨front :: others, anchor, place⟩]
    cases Cursor.take _ label want <;> rfl

/-- The steps for a request come to the answer that the request is given. -/
theorem does_perform (request : Request) : Does (perform request) (·.answer request) := by
  -- The pops are shown above, and the other requests take one step.
  cases request with
  | popFront label => exact (does_popFront label).replying _
  | pop want label => exact does_take label want
  | maybePop want label => exact does_takeIfFront label want
  | peekFront => exact fun _ => rfl
  | frontIsList => exact fun _ => rfl
  | assertEmpty label => rintro ⟨_ | ⟨front, others⟩, anchor, place⟩ <;> rfl

end Work

end Sexpr.Cursor
