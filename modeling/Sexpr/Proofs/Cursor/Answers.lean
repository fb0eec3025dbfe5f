import Sexpr.Proofs.Cursor.Requests

/-! Every request to a cursor is answered: with what it takes from the front node, or with an error that
leaves the cursor as it was. -/

namespace Sexpr.Cursor

/-- A view of the atoms of one variant: it finds in each what the atom was made of. -/
structure Views {α : Type} (kind : NodeKind) (wrap : α → Atom) (view : Atom → Option α) : Prop where
  found_iff : ∀ atom value, view atom = some value ↔ atom = wrap value
  kind_iff : ∀ atom : Atom, atom.nodeKind = kind ↔ ∃ value, atom = wrap value

theorem Views.found {α : Type} {kind : NodeKind} {wrap : α → Atom} {view : Atom → Option α}
    (views : Views kind wrap view) (value : α) : view (wrap value) = some value :=
  -- The view finds just what was wrapped.
  (views.found_iff _ _).mpr rfl

theorem Views.unseen {α : Type} {kind : NodeKind} {wrap : α → Atom} {view : Atom → Option α}
    (views : Views kind wrap view) {atom : Atom} (other : atom.nodeKind ≠ kind) :
    view atom = none := by
  -- If it found a value, the atom would be of the variant.
  refine Option.eq_none_iff_forall_ne_some.mpr fun value seen => other ?_
  exact (views.kind_iff _).mpr ⟨value, (views.found_iff _ _).mp seen⟩

theorem views_bool : Views .bool .bool Atom.bool? where
  found_iff atom value := by cases atom <;> simp [Atom.bool?]
  kind_iff atom := by cases atom <;> simp [Atom.nodeKind]

theorem views_comment : Views .comment .comment Atom.comment? where
  found_iff atom value := by cases atom <;> simp [Atom.comment?]
  kind_iff atom := by cases atom <;> simp [Atom.nodeKind]

theorem views_number : Views .number .number Atom.number? where
  found_iff atom value := by cases atom <;> simp [Atom.number?]
  kind_iff atom := by cases atom <;> simp [Atom.nodeKind]

theorem views_identifier : Views .identifier .identifier Atom.identifier? where
  found_iff atom value := by cases atom <;> simp [Atom.identifier?]
  kind_iff atom := by cases atom <;> simp [Atom.nodeKind]

theorem views_string : Views .string .string Atom.string? where
  found_iff atom value := by cases atom <;> simp [Atom.string?]
  kind_iff atom := by cases atom <;> simp [Atom.nodeKind]

/-- What taking a value comes to, and the cursor that is left: after a refusal it is the old one. -/
def settle {α : Type} (cursor : Cursor) : Taken α → Except Failure α × Cursor
  | .ok (value, rest) => (.ok value, rest)
  | .error error => (.error (.error error), cursor)

/-- That a request ends as it should with what was taken. -/
def Answers (cursor : Cursor) (request : Request) (taken : Taken Reply) : Prop :=
  Handled cursor request (settle cursor taken).1 (settle cursor taken).2

section Pops

variable {cursor : Cursor} {label : String}

/-- A refusal answers a request with an error at the position that it is blamed on. -/
theorem answers_refused {request : Request} {message : String} {location : Location}
    (refused : request.Refused cursor message) (blames : cursor.blamed = location) :
    cursor.Answers request (.error ⟨.cursor message, location⟩) := by
  subst blames
  exact .refused refused

/-- A want that the front node does not meet is refused at the front node. -/
theorem answers_unmet {want : Want} {front : Node} (inFront : cursor.front? = some front)
    (unmet : ∀ reply, ¬ want.Gets cursor.innerPlace front reply)
    (other : want = .integer → front.kind ≠ .number) :
    cursor.Answers (.pop want label) (.error (missing label front.location)) := by
  -- The error is that of a node of another variant, and the cursor blames the node in front.
  refine answers_refused (.unmet ?_ ?_) (by simp only [blamed, inFront, Option.map, Option.getD])
  · intro node member
    cases inFront.symm.trans member
    exact unmet
  · intro whole node member
    cases inFront.symm.trans member
    exact other whole

/-- A cursor with nothing left refuses every want at the list. -/
theorem answers_empty (want : Want) (none : cursor.front? = none) :
    cursor.Answers (.pop want label) (.error (missing label cursor.anchor)) := by
  -- Without a node there is none that the request could get, and the cursor blames its anchor.
  refine answers_refused (.unmet ?_ ?_) (by simp only [blamed, none, Option.map, Option.getD])
  · intro node member
    cases none.symm.trans member
  · intro _ node member
    cases none.symm.trans member

/-- Taking by a view answers the want for the view's variant. -/
theorem answers_popAs {α : Type} {want : Want} {wrap : α → Atom} {view : Atom → Option α}
    (views : Views want.kind wrap view) (whole : want ≠ .integer) (single : want ≠ .list) :
    cursor.Answers (.pop want label)
      (replying (.ofAtom wrap) (cursor.popAs (fun node => node.atom?.bind view) label)) := by
  -- The node in front is an atom of the variant, or else the view finds nothing in it.
  obtain ⟨nodes, anchor, place⟩ := cursor
  rcases nodes with _ | ⟨front, others⟩
  · exact answers_empty want rfl
  -- The view sees what the want gets: the value of an atom of the variant, and nothing else.
  cases front with
  | list children tokens =>
    refine answers_unmet rfl ?_ fun integer => absurd integer whole
    rintro _ ⟨⟩
    exact single rfl
  | atom value tokens =>
    by_cases fits : value.nodeKind = want.kind
    · obtain ⟨found, rfl⟩ := (views.kind_iff _).mp fits
      simp only [popAs, Node.atom?, Option.bind, views.found]
      exact .taken rfl rfl rfl (.pop (.atom fits whole))
    · simp only [popAs, Node.atom?, Option.bind, views.unseen fits]
      refine answers_unmet rfl ?_ fun integer => absurd integer whole
      rintro _ (⟨fits', -⟩ | ⟨-⟩)
      · exact fits fits'
      · exact whole rfl

/-- Taking an integer answers the want for one. -/
theorem answers_popInteger :
    cursor.Answers (.pop .integer label) (replying .ofInteger (cursor.popInteger label)) := by
  -- The node in front is a number with an integer to it, a number without one, or no number.
  obtain ⟨nodes, anchor, place⟩ := cursor
  rcases nodes with _ | ⟨front, others⟩
  · exact answers_empty .integer rfl
  cases front with
  | list children tokens => exact answers_unmet rfl (by rintro _ ⟨⟩) nofun
  | atom value tokens =>
    by_cases fits : value.nodeKind = .number
    · obtain ⟨number, rfl⟩ := (views_number.kind_iff _).mp fits
      cases integer : number.toInt? with
      | none =>
        -- Its value is what keeps the number from being taken, not its variant.
        have fraction (value : Int) (equals : number.Equals value) : False := by
          cases integer.symm.trans (Binary64.equals_iff_toInt?.mp equals)
        simp only [popInteger, popNumber, popAs, Node.atom?, Option.bind, Atom.number?, integer]
        exact answers_refused (.fraction rfl fraction) rfl
      | some found =>
        simp only [popInteger, popNumber, popAs, Node.atom?, Option.bind, Atom.number?, integer]
        exact .taken rfl rfl rfl (.pop (.integer (Binary64.equals_iff_toInt?.mpr integer)))
    · simp only [popInteger, popNumber, popAs, Node.atom?, Option.bind, views_number.unseen fits]
      refine answers_unmet rfl ?_ fun _ => fits
      rintro _ (⟨-, whole⟩ | ⟨-⟩)
      · exact whole rfl
      · exact fits rfl

/-- Taking a list answers the want for one. -/
theorem answers_popList :
    cursor.Answers (.pop .list label) (replying .list (cursor.popList label)) := by
  -- The node in front is a list or an atom.
  obtain ⟨nodes, anchor, place⟩ := cursor
  rcases nodes with _ | ⟨front, others⟩
  · exact answers_empty .list rfl
  cases front with
  | list children tokens => exact .taken rfl rfl rfl (.pop .list)
  | atom value tokens =>
    refine answers_unmet rfl ?_ nofun
    rintro _ (⟨fits, -⟩)
    cases value <;> cases fits

/-- Every want is answered. -/
theorem answers_take (cursor : Cursor) (label : String) (want : Want) :
    cursor.Answers (.pop want label) (cursor.take label want) := by
  -- Five of the requests differ in their view only, and the other two are shown above.
  cases want with
  | bool => exact answers_popAs views_bool nofun nofun
  | comment => exact answers_popAs views_comment nofun nofun
  | number => exact answers_popAs views_number nofun nofun
  | identifier => exact answers_popAs views_identifier nofun nofun
  | integer => exact answers_popInteger
  | string => exact answers_popAs views_string nofun nofun
  | list => exact answers_popList

end Pops

/-- The test that a node has to pass to be taken for a want. -/
def Want.test (want : Want) (node : Node) : Bool :=
  if want = .integer then (node.atom?.bind Atom.number?).any Binary64.isIntegral
  else node.is want.kind

/-- The nodes that pass the test of a want are those that it gets something from. -/
theorem Want.test_iff {want : Want} {node : Node} {place : List Nat} :
    want.test node = true ↔ ∃ reply, want.Gets place node reply := by
  -- The test asks for the variant, and for an integer also for a value.
  constructor
  · intro passed
    -- Only the test for an integer looks at the value, and any other one at the variant.
    by_cases whole : want = .integer
    · subst whole
      obtain ⟨number, seen, integral⟩ := (Option.any_eq_true ..).mp passed
      cases node with
      | list children tokens => cases seen
      | atom value tokens =>
        cases (views_number.found_iff _ _).mp seen
        obtain ⟨found, equals⟩ := Option.isSome_iff_exists.mp integral
        exact ⟨_, .integer (Binary64.equals_iff_toInt?.mpr equals)⟩
    · rw [Want.test, if_neg whole] at passed
      have fits : node.kind = want.kind := beq_iff_eq.mp passed
      cases node with
      | atom value tokens => exact ⟨_, .atom fits whole⟩
      | list children tokens =>
        cases want <;> first | exact ⟨_, .list⟩ | cases fits
  · rintro ⟨_, gets⟩
    cases gets with
    | atom fits whole =>
      rw [Want.test, if_neg whole]
      exact beq_iff_eq.mpr fits
    | integer equals =>
      rw [Want.test, if_pos rfl]
      exact Option.isSome_of_eq_some (Binary64.equals_iff_toInt?.mp equals)
    | list => rfl

/-- Taking a value only if it passes a test, in the form of replies. -/
theorem replying_maybe {α : Type} (reply : α → Reply) (matching : Node → Bool)
    (pop : Cursor → String → Taken α) (cursor : Cursor) (label : String) :
    replying (.orNothing reply) (maybe matching pop cursor label) =
      if cursor.front?.any matching then replying reply (pop cursor label)
      else .ok (.nothing, cursor) := by
  -- The test comes first, and a request that it stops has nothing for a reply.
  unfold maybe
  split
  · cases pop cursor label <;> rfl
  · rfl

/-- Taking a value only if it is in front tests for it and then takes it. -/
theorem takeIfFront_eq (cursor : Cursor) (label : String) (want : Want) :
    cursor.takeIfFront label want =
      if cursor.front?.any want.test then cursor.take label want else .ok (.nothing, cursor) := by
  -- Each of the seven is the same construction over its strict request.
  cases want <;> exact replying_maybe ..

/-- Where there is something to take, a value is taken alike if it only may be taken. -/
theorem Handled.optional {cursor after : Cursor} {want : Want} {label : String}
    {outcome : Except Failure Reply} (handled : Handled cursor (.pop want label) outcome after)
    {front : Node} (inFront : cursor.front? = some front) {reply : Reply}
    (gets : want.Gets cursor.innerPlace front reply) :
    Handled cursor (.maybePop want label) outcome after := by
  -- A refusal would say that there is nothing to take.
  cases handled with
  | taken nodes anchor place takes =>
    cases takes with
    | pop gets => exact .taken nodes anchor place (.maybePop gets)
  | refused refused =>
    cases refused with
    | unmet unmet => exact absurd gets (unmet front inFront reply)
    | fraction fractional fraction =>
      cases inFront.symm.trans fractional
      cases gets with
      | atom fits whole => exact absurd rfl whole
      | integer equals => exact absurd equals (fraction _)

/-- Every optional want is answered. -/
theorem answers_takeIfFront (cursor : Cursor) (label : String) (want : Want) :
    cursor.Answers (.maybePop want label) (cursor.takeIfFront label want) := by
  -- If the test is passed the strict request succeeds, and otherwise nothing is there to get.
  rw [takeIfFront_eq]
  split
  case isTrue passed =>
    obtain ⟨front, inFront, passed⟩ := (Option.any_eq_true ..).mp passed
    obtain ⟨reply, gets⟩ := Want.test_iff.mp passed
    exact (answers_take cursor label want).optional inFront gets
  case isFalse failed =>
    refine .passed fun front inFront reply gets => failed ?_
    rw [Option.mem_def.mp inFront]
    exact Want.test_iff.mpr ⟨reply, gets⟩

/-- Every request is answered. -/
theorem answers_answer (cursor : Cursor) (request : Request) :
    cursor.Answers request (cursor.answer request) := by
  -- Pops are answered as shown above, and any other request by a look at the nodes.
  cases request with
  | pop want label => exact answers_take cursor label want
  | maybePop want label => exact answers_takeIfFront cursor label want
  | peekFront => exact .peeked
  | frontIsList =>
    refine .looked ((Option.any_eq_true ..).trans ⟨?_, ?_⟩)
    · rintro ⟨front, inFront, list⟩
      cases front with
      | atom value tokens => cases value <;> cases list
      | list children tokens => exact ⟨children, tokens, inFront⟩
    · rintro ⟨children, tokens, inFront⟩
      exact ⟨_, inFront, rfl⟩
  | popFront label =>
    obtain ⟨_ | ⟨front, others⟩, anchor, place⟩ := cursor
    · exact .refused (.empty rfl)
    · exact .taken rfl rfl rfl .front
  | assertEmpty label =>
    obtain ⟨_ | ⟨front, others⟩, anchor, place⟩ := cursor
    · exact .checked rfl
    · exact .refused (@Request.Refused.occupied _ label front rfl)

end Sexpr.Cursor
