import Sexpr.Proofs.Cursor.Work
import Sexpr.Proofs.Node.Comments

/-! Taking a value if it is in front comes to taking it where that succeeds, and to taking nothing where it fails.
The front node settles which values can be taken. -/

namespace Sexpr

namespace Node

/-- A row of nodes coincides with itself if each of them does. -/
theorem allCoincide_of_forall {nodes : List Node} (each : ∀ node ∈ nodes, node.coincides node = true) :
    allCoincide nodes nodes = true := by
  -- By induction the rows coincide if each node does with itself.
  induction nodes with
  | nil => rfl
  | cons node nodes ih =>
    have others := ih fun other member => each other (List.mem_cons_of_mem node member)
    rw [allCoincide, each node List.mem_cons_self, others, Bool.and_self]

/-- Every node coincides with itself, also where not-a-number occurs in it. -/
theorem coincides_self (node : Node) : node.coincides node = true := by
  -- An atom coincides with itself, and a list by induction as its children do.
  induction node with
  | atom value tokens => simp only [coincides, beq_self_eq_true, Bool.and_self, Bool.true_or]
  | list children tokens ih => exact allCoincide_of_forall ih

end Node

namespace Cursor

/-- Every cursor agrees with itself. -/
theorem agrees_self (cursor : Cursor) : cursor.agrees cursor = true := by
  rw [agrees, if_pos rfl]
  exact Node.allCoincide_of_forall fun node _ => node.coincides_self

/-- How taking a value if it is in front ends beside taking it: with the same value and the same cursor behind it, or
with nothing and the old cursor where taking it fails. -/
inductive Follows {α : Type} (cursor : Cursor) : Taken α → Taken (Option α) → Prop
  | found {value : α} {after : Cursor} : Follows cursor (.ok (value, after)) (.ok (some value, after))
  | nothing {error : Error} : Follows cursor (.error error) (.ok (none, cursor))

/-- Each way of taking a value if it is in front follows the way of taking it. -/
structure AllFollow (cursor : Cursor) (label : String) : Prop where
  bool : cursor.Follows (cursor.popBool label) (cursor.maybePopBool label)
  comment : cursor.Follows (cursor.popComment label) (cursor.maybePopComment label)
  number : cursor.Follows (cursor.popNumber label) (cursor.maybePopNumber label)
  identifier : cursor.Follows (cursor.popIdentifier label) (cursor.maybePopIdentifier label)
  integer : cursor.Follows (cursor.popInteger label) (cursor.maybePopInteger label)
  string : cursor.Follows (cursor.popString label) (cursor.maybePopString label)
  list : cursor.Follows (cursor.popList label) (cursor.maybePopList label)

/-- How the steps of an optional request end beside those of the strict one. Of the failures there are only errors. -/
inductive Work.Follows (cursor : Cursor) :
    Except Failure Reply × Cursor → Except Failure Reply × Cursor → Prop
  | found {reply : Reply} {after : Cursor} (something : reply ≠ .nothing) :
      Work.Follows cursor (.ok reply, after) (.ok reply, after)
  | nothing {error : Error} : Work.Follows cursor (.error (.error error), cursor) (.ok .nothing, cursor)

/-- That a value which only may be taken is found in front. -/
def Finds (cursor : Cursor) (label : String) (want : Want) : Prop :=
  ∃ reply after, cursor.takeIfFront label want = .ok (reply, after) ∧ reply ≠ .nothing

/-- What a want gets is something. -/
theorem Want.Gets.something {place : List Nat} {want : Want} {node : Node} {reply : Reply}
    (gets : want.Gets place node reply) : reply ≠ .nothing := by
  -- No clause of what a request gets has nothing for a reply.
  cases gets <;> exact Reply.noConfusion

section Follow

variable {cursor : Cursor} {label : String} {want : Want}

/-- What is taken is something, and the front node passes the test for it. -/
theorem passed_of_take {reply : Reply} {after : Cursor} (took : cursor.take label want = .ok (reply, after)) :
    cursor.front?.any want.test = true ∧ reply ≠ .nothing := by
  -- What was taken is a node that the request gets, and such a node passes the test.
  have answered : Handled cursor (.pop want label) (.ok reply) after := by
    simpa only [Answers, took, settle] using answers_take cursor label want
  cases answered with
  | taken nodes anchor place takes =>
    have inFront : cursor.front? = some _ := congrArg List.head? nodes
    cases takes with
    | pop gets =>
      exact ⟨(Option.any_eq_true ..).mpr ⟨_, inFront, Want.test_iff.mpr ⟨_, gets⟩⟩, gets.something⟩

/-- Where taking a value fails, the front node does not pass the test for it. -/
theorem failed_of_take {error : Error} (failed : cursor.take label want = .error error) :
    cursor.front?.any want.test = false := by
  -- A node that passes the test would make the same error end a request that is never refused.
  refine Bool.eq_false_iff.mpr fun passed => ?_
  have answered : Handled cursor (.maybePop want label) (.error (.error error)) cursor := by
    simpa only [Answers, takeIfFront_eq, if_pos passed, failed, settle] using
      answers_takeIfFront cursor label want
  cases answered with
  | refused refused => cases refused

/-- Testing for a want before taking a value follows taking it. -/
theorem follows_maybe {α : Type} (want : Want) {reply : α → Reply} {pop : Cursor → String → Taken α}
    (takes : cursor.take label want = replying reply (pop cursor label)) :
    cursor.Follows (pop cursor label) (maybe want.test pop cursor label) := by
  -- The strict request succeeds just if the test is passed, so the optional one does the same or nothing.
  unfold maybe
  cases popped : pop cursor label with
  | ok found =>
    obtain ⟨passed, -⟩ := passed_of_take (takes.trans (congrArg (replying reply) popped))
    rw [if_pos passed]
    exact .found
  | error error =>
    have failed := failed_of_take (takes.trans (congrArg (replying reply) popped))
    rw [if_neg (Bool.eq_false_iff.mp failed)]
    exact .nothing

theorem allFollow (cursor : Cursor) (label : String) : cursor.AllFollow label where
  -- Each of the seven is the same construction over its strict request.
  bool := follows_maybe .bool rfl
  comment := follows_maybe .comment rfl
  number := follows_maybe .number rfl
  identifier := follows_maybe .identifier rfl
  integer := follows_maybe .integer rfl
  string := follows_maybe .string rfl
  list := follows_maybe .list rfl

/-- The steps of an optional request follow those of the strict one for the same want. -/
theorem Work.follows_perform (cursor : Cursor) (label : String) (want : Want) :
    Work.Follows cursor (Work.runOn (Work.perform (.pop want label)) cursor)
      (Work.runOn (Work.perform (.maybePop want label)) cursor) := by
  -- What is done step by step is what the answers say, and for these it is shown above.
  rw [does_perform, does_perform]
  change Work.Follows cursor (settle cursor (cursor.take label want))
    (settle cursor (cursor.takeIfFront label want))
  rw [takeIfFront_eq]
  cases took : cursor.take label want with
  | ok found =>
    obtain ⟨passed, something⟩ := passed_of_take took
    rw [if_pos passed]
    exact .found something
  | error error =>
    rw [if_neg (Bool.eq_false_iff.mp (failed_of_take took))]
    exact .nothing

/-- Something is found exactly where the front node passes the test for it. -/
theorem finds_iff : cursor.Finds label want ↔ ∃ front, cursor.front? = some front ∧ want.test front = true := by
  -- Something is found just if the test is passed.
  rw [Finds, takeIfFront_eq, ← Option.any_eq_true]
  constructor
  · rintro ⟨reply, after, found, something⟩
    split at found
    case isTrue passed => exact passed
    case isFalse =>
      cases found
      exact absurd rfl something
  · intro passed
    rw [if_pos passed]
    cases took : cursor.take label want with
    | ok found => exact ⟨_, _, rfl, (passed_of_take took).2⟩
    | error error => cases passed.symm.trans (failed_of_take took)

end Follow

section Exclusion

variable {want other : Want} {node : Node}

/-- The test of a want looks at the variant, and at the value too if an integer is wanted. -/
theorem Want.kind_of_test (passed : want.test node = true) : node.kind = want.kind := by
  -- What passes the test is what the request gets.
  obtain ⟨_, gets⟩ : ∃ reply, want.Gets [] node reply := Want.test_iff.mp passed
  cases gets with
  | atom fits => exact fits
  | integer => rfl
  | list => rfl

/-- Wants of one variant are the same, or one is for a number and the other for an integer. -/
theorem Want.eq_or_of_kind (same : want.kind = other.kind) :
    want = other ∨ want = .number ∧ other = .integer ∨ want = .integer ∧ other = .number := by
  -- There are seven requests, and two of them ask for one variant.
  revert same
  cases want <;> cases other <;> decide

/-- The test for an integer is passed by the numbers that equal one. -/
theorem Want.test_integer_iff : Want.integer.test node = true ↔
    ∃ number tokens, node = .atom (.number number) tokens ∧ ∃ value, number.Equals value := by
  -- What passes the test is a number that equals an integer.
  constructor
  · intro passed
    obtain ⟨_, gets⟩ : ∃ reply, Want.integer.Gets [] node reply := Want.test_iff.mp passed
    cases gets with
    | atom fits whole => exact absurd rfl whole
    | integer equals => exact ⟨_, _, rfl, _, equals⟩
  · rintro ⟨number, tokens, rfl, value, equals⟩
    have gets : Want.integer.Gets [] (.atom (.number number) tokens) _ := .integer equals
    exact Want.test_iff.mpr ⟨_, gets⟩

/-- Every node passes the test of some want. -/
theorem Want.exists_test (node : Node) : ∃ want : Want, want.test node = true := by
  -- Every variant has a request of its own.
  cases node with
  | list children tokens => exact ⟨.list, rfl⟩
  | atom value tokens =>
    cases value with
    | bool => exact ⟨.bool, rfl⟩
    | comment => exact ⟨.comment, rfl⟩
    | number => exact ⟨.number, rfl⟩
    | identifier => exact ⟨.identifier, rfl⟩
    | string => exact ⟨.string, rfl⟩

variable {cursor : Cursor} {label otherLabel : String}

/-- What is found for two wants at once is a number, which is wanted as an integer too. -/
theorem Finds.eq_or (finds : cursor.Finds label want) (also : cursor.Finds otherLabel other) :
    want = other ∨ want = .number ∧ other = .integer ∨ want = .integer ∧ other = .number := by
  -- Both requests look at the same node, which has one variant.
  obtain ⟨front, inFront, passed⟩ := finds_iff.mp finds
  obtain ⟨same, alsoInFront, alsoPassed⟩ := finds_iff.mp also
  obtain rfl := Option.some.inj (inFront.symm.trans alsoInFront)
  exact Want.eq_or_of_kind ((Want.kind_of_test passed).symm.trans (Want.kind_of_test alsoPassed))

/-- Both a number and an integer are found exactly where a number that equals an integer is in front. -/
theorem finds_number_and_integer_iff : cursor.Finds label .number ∧ cursor.Finds otherLabel .integer ↔
    ∃ number tokens, cursor.front? = some (.atom (.number number) tokens) ∧ ∃ value, number.Equals value := by
  -- The second request already tells that a number is in front.
  simp only [finds_iff, Want.test_integer_iff]
  constructor
  · rintro ⟨-, _, inFront, number, tokens, rfl, equals⟩
    exact ⟨number, tokens, inFront, equals⟩
  · rintro ⟨number, tokens, inFront, equals⟩
    exact ⟨⟨_, inFront, rfl⟩, _, inFront, number, tokens, rfl, equals⟩

/-- Where a node is left, something is found. -/
theorem exists_finds (left : cursor.nodes ≠ []) (label : String) : ∃ want, cursor.Finds label want := by
  -- The node in front passes the test of its own variant.
  obtain ⟨front, inFront⟩ := Option.isSome_iff_exists.mp (List.isSome_head?.mpr left)
  obtain ⟨want, passed⟩ := Want.exists_test front
  exact ⟨want, finds_iff.mpr ⟨front, inFront, passed⟩⟩

end Exclusion

/-- Taking a value if it is in front agrees with taking it, for every variant and whatever is left: where one takes
something, both take the same and leave the same, and where one fails, the other takes nothing and leaves all as it
was. This holds of the steps too, in which a failure undoes nothing. At most one variant is found, apart from numbers
that are integers as well, and some variant is found wherever a node is left. -/
theorem maybePop_follows (cursor : Cursor) :
    (∀ label, cursor.AllFollow label) ∧
    (∀ label want, Work.Follows cursor (Work.runOn (Work.perform (.pop want label)) cursor)
      (Work.runOn (Work.perform (.maybePop want label)) cursor)) ∧
    (∀ label inner after, cursor.popList label = .ok (inner, after) → inner.agrees inner = true) ∧
    (∀ want other label otherLabel, cursor.Finds label want → cursor.Finds otherLabel other →
      want = other ∨ want = .number ∧ other = .integer ∨ want = .integer ∧ other = .number) ∧
    (∀ label otherLabel, cursor.Finds label .number ∧ cursor.Finds otherLabel .integer ↔
      ∃ number tokens, cursor.front? = some (.atom (.number number) tokens) ∧
        ∃ value, number.Equals value) ∧
    (cursor.nodes ≠ [] → ∀ label, ∃ want, cursor.Finds label want) :=
  -- All but the equality of the list's cursor with itself is about the seven tests.
  ⟨cursor.allFollow, fun label want => Work.follows_perform cursor label want,
    fun _ inner _ _ => inner.agrees_self, fun _ _ _ _ finds also => finds.eq_or also,
    fun _ _ => finds_number_and_integer_iff, exists_finds⟩

/-- An infinity in front is no integer, and stays there. -/
example : maybePopInteger ⟨[.atom (.number (.infinity false)) []], {}, [0]⟩ "a count" =
    .ok (none, ⟨[.atom (.number (.infinity false)) []], {}, [0]⟩) := rfl

end Cursor

end Sexpr
