import Sexpr.Proofs.Cursor.Work
import Sexpr.Proofs.Number.Integers
import Sexpr.Proofs.RoundTrip

/-! Integers taken from a list in which a literal stands alone: which literals give one, and which of them give the
very integer that they spell. -/

namespace Sexpr

namespace Cursor

section Number

variable {number : Binary64} {tokens : List Token} {others : List Node} {anchor : Location} {place : List Nat}
  {label : String}

/-- A number in front is taken as the integer that it equals, and refused where it equals none. -/
theorem popInteger_number : popInteger ⟨.atom (.number number) tokens :: others, anchor, place⟩ label =
    match number.toInt? with
    | some integer => .ok ((integer, (Node.atom (.number number) tokens).location),
        rest ⟨.atom (.number number) tokens :: others, anchor, place⟩)
    | none => .error ⟨.cursor ("Expected an int for " ++ label), (Node.atom (.number number) tokens).location⟩ :=
  rfl

/-- What is taken is the integer that the number equals. -/
theorem popInteger_ok_iff {taken : (Int × Location) × Cursor} :
    popInteger ⟨.atom (.number number) tokens :: others, anchor, place⟩ label = .ok taken ↔
      ∃ integer, number.Equals integer ∧ taken = ((integer, (Node.atom (.number number) tokens).location),
        rest ⟨.atom (.number number) tokens :: others, anchor, place⟩) := by
  -- The number has an integer or not, and only with one it is taken.
  rw [popInteger_number]
  simp only [Binary64.equals_iff_toInt?]
  cases number.toInt? with
  | none => simp
  | some integer => simp [eq_comm]

/-- There is an error only where it equals none. -/
theorem popInteger_error_iff {error : Error} :
    popInteger ⟨.atom (.number number) tokens :: others, anchor, place⟩ label = .error error ↔
      (∀ integer, ¬ number.Equals integer) ∧
        error = ⟨.cursor ("Expected an int for " ++ label), (Node.atom (.number number) tokens).location⟩ := by
  -- The number has an integer or not, and only without one it is refused.
  rw [popInteger_number]
  simp only [Binary64.equals_iff_toInt?]
  cases number.toInt? with
  | none => simp [eq_comm]
  | some integer => simp

end Number

end Cursor

namespace Literal

/-- A text with a list in which a literal stands alone. -/
def listed (literal : Literal) : String := String.ofList ('(' :: literal.chars ++ [')'])

/-- The position of the literal in that text. -/
def listedAt (path : Option Path) : Location := { line := 0, column := 1, path }

/-- A cursor over the only node that the text of the list is read as, with comments ignored or not. -/
def Opens (literal : Literal) (path : Option Path) (cursor : Cursor) : Prop :=
  ∀ ignoreComments, ∃ node, parseText literal.listed path ignoreComments = .ok [node] ∧
    ∀ label, Cursor.ofNode node label = .ok cursor

/-- Reading the list gives a cursor over the number that the literal denotes, at the position of the literal. -/
theorem Denotes.opens {literal : Literal} {value : Binary64} (denotes : literal.Denotes value)
    (path : Option Path) : ∃ token anchor, token.location = listedAt path ∧
      literal.Opens path ⟨[.atom (.number value) [token]], anchor, [0]⟩ := by
  -- The text is read as its three tokens, which make one list.
  let opened : Token := { lexeme := .listOpen, raw := "(", location := { path } }
  let number : Token :=
    { lexeme := .atom (.number value), raw := String.ofList literal.chars, location := listedAt path }
  let closed : Token :=
    { lexeme := .listClose, raw := ")", location := (listedAt path).advanceOver literal.chars }
  refine ⟨number, { path }, rfl, fun ignoreComments => ?_⟩
  let node : Node := .list [.atom (.number value) [number]] [opened, closed]
  have reads : Reads { path } literal.listed.toList [opened, number, closed]
      (closed.location.advanceOver [')']) [] := by
    rw [listed, String.toList_ofList]
    refine .token .listOpen (Lexeme.ends_of_apart rfl (by decide) (literal.chars ++ [')'])) ?_
    refine .token (.number literal denotes) (Lexeme.ends_of_word rfl rfl) ?_
    exact .token .listClose (Lexeme.ends_of_apart rfl (by decide) []) .done
  have owns : ∀ node' ∈ [node], node'.Owns := by
    simpa [node] using Node.Owns.list rfl rfl (by simpa using Node.Owns.atom rfl)
  refine ⟨node, parseText_eq_ok_iff.mpr ⟨[node], _, owns, reads, ?_⟩, fun label => rfl⟩
  cases ignoreComments <;> rfl

/-- A literal that denotes a number can be read in a list of its own. Asked for an integer, a cursor over the list
gives the one that the number equals, and where it equals none it refuses at the position of the literal; step by
step this comes to the same, and a refusal leaves the cursor as it was. A literal that is exactly an integer of at
most 53 bits, with whatever zeros it is spelled, gives this integer. -/
theorem popInteger_listed (literal : Literal) (path : Option Path) (label : String) :
    (∀ value, literal.Denotes value → ∃ cursor, literal.Opens path cursor ∧
      (∀ taken, cursor.popInteger label = .ok taken ↔
        ∃ integer, value.Equals integer ∧ taken = ((integer, listedAt path), cursor.rest)) ∧
      (∀ error, cursor.popInteger label = .error error ↔ (∀ integer, ¬ value.Equals integer) ∧
        error = ⟨.cursor ("Expected an int for " ++ label), listedAt path⟩) ∧
      Cursor.Work.runOn (Cursor.Work.popInteger label) cursor =
        Cursor.settle cursor (cursor.popInteger label)) ∧
    ∀ integer, literal.IsInteger integer → integer.natAbs ≤ 2 ^ 53 → ∃ cursor, literal.Opens path cursor ∧
      cursor.popInteger label = .ok ((integer, listedAt path), cursor.rest) := by
  -- The cursor stands before the number that the literal denotes, whose integer decides.
  constructor
  · intro value denotes
    obtain ⟨token, anchor, here, opens⟩ := denotes.opens path
    refine ⟨_, opens, fun taken => ?_, fun error => ?_, Cursor.Work.does_popInteger label _⟩
    · rw [Cursor.popInteger_ok_iff, ← here]
      rfl
    · rw [Cursor.popInteger_error_iff, ← here]
      rfl
  · intro integer whole bounded
    -- Such a literal denotes a number that equals the integer.
    obtain ⟨value, denotes, equals⟩ := whole.denotes bounded
    obtain ⟨token, anchor, here, opens⟩ := denotes.opens path
    refine ⟨_, opens, Cursor.popInteger_ok_iff.mpr ⟨integer, equals, ?_⟩⟩
    rw [← here]
    rfl

/-- The largest integer with 53 bits that are all kept, with a plus, zeros in front of it and zeros behind the point. -/
theorem popInteger_listed_bound :
    let literal : Literal :=
      -- The literal writes the bound itself, with a sign and with zeros around it.
      { sign := some '+', whole := "009007199254740992".toList, fraction := some ['0', '0', '0'],
        signed := by simp [isSign], opens := by decide, digits := List.all_eq_true.mp (by decide),
        fractionDigits := by simp }
    literal.IsInteger 9007199254740992 ∧ Int.natAbs 9007199254740992 ≤ 2 ^ 53 ∧
      ∃ cursor, literal.Opens none cursor ∧
        cursor.popInteger "count" = .ok ((9007199254740992, listedAt none), cursor.rest) := by
  intro literal
  have whole : literal.IsInteger 9007199254740992 := by decide
  have bounded : Int.natAbs 9007199254740992 ≤ 2 ^ 53 := by decide
  exact ⟨whole, bounded, (popInteger_listed literal none "count").2 _ whole bounded⟩

/-- The next integer is read as its neighbour. -/
example : (Binary64.ofFraction false 9007199254740993 1).toInt? = some 9007199254740992 := by decide +kernel

end Literal

end Sexpr
