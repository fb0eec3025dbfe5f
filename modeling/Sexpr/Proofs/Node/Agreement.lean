import Mathlib.Data.List.Forall2
import Sexpr.Node.Text
import Sexpr.Proofs.Node.Comments
import Sexpr.Proofs.Number.Text

/-! Nodes that agree have the same text, although numbers are compared as numbers. -/

namespace Sexpr

/-- Numbers that agree are the same infinity, or finite ones of one rank and, but for zero, of one sign. -/
theorem Binary64.agrees_cases {value other : Binary64} (agree : value.agrees other = true) :
    (∃ negative, value = .infinity negative ∧ other = .infinity negative) ∨
      ∃ negative otherNegative rank inRange, value = .finite negative rank inRange ∧
        other = .finite otherNegative rank inRange ∧ (negative = otherNegative ∨ rank = 0) := by
  -- Any other two variants disagree by definition.
  cases value with
  | nan => simp [agrees] at agree
  | infinity negative =>
    cases other with
    | infinity otherNegative =>
      obtain rfl : negative = otherNegative := by simpa [agrees] using agree
      exact Or.inl ⟨negative, rfl, rfl⟩
    | nan => simp [agrees] at agree
    | finite => simp [agrees] at agree
  | finite negative rank inRange =>
    cases other with
    | finite otherNegative otherRank otherInRange =>
      obtain ⟨rfl, sign⟩ : rank = otherRank ∧ (negative = otherNegative ∨ rank = 0) := by
        simpa [agrees] using agree
      exact Or.inr ⟨negative, otherNegative, rank, inRange, rfl, rfl, sign⟩
    | nan => simp [agrees] at agree
    | infinity => simp [agrees] at agree

/-- Numbers that agree have the same text: only the two zeros agree without being the same. -/
theorem Binary64.text_of_agrees {value other : Binary64} (agree : value.agrees other = true) :
    value.text = other.text := by
  -- The two are the same but for the sign of zero.
  rcases agrees_cases agree with ⟨negative, rfl, rfl⟩ | ⟨negative, _, rank, inRange, rfl, rfl, rfl | rfl⟩
  · rfl
  · rfl
  · -- Zero is written alike with either sign.
    rw [text_zero, text_zero]

/-- A number that agrees with a finite one is finite. -/
theorem Binary64.isFinite_of_agrees {value other : Binary64} (agree : value.agrees other = true)
    (finite : value.isFinite = true) : other.isFinite = true := by
  rcases agrees_cases agree with ⟨negative, rfl, rfl⟩ | ⟨_, _, _, _, rfl, rfl, -⟩
  · cases finite
  · rfl

namespace Node

/-- Atoms that agree are numbers that agree, or the same. -/
theorem agrees_atom {value other : Atom} {tokens others : List Token}
    (agree : (atom value tokens).agrees (atom other others) = true) :
    (∃ number same, value = .number number ∧ other = .number same ∧ number.agrees same = true) ∨
      value = other := by
  -- Equality of nodes looks further than the payload for numbers only.
  cases value with
  | number number =>
    cases other with
    | number same => exact Or.inl ⟨number, same, rfl, rfl, agree⟩
    | bool => simp [agrees] at agree
    | string => simp [agrees] at agree
    | identifier => simp [agrees] at agree
    | comment => simp [agrees] at agree
  | bool => exact Or.inr (by simpa [agrees] using agree)
  | string => exact Or.inr (by simpa [agrees] using agree)
  | identifier => exact Or.inr (by simpa [agrees] using agree)
  | comment => exact Or.inr (by simpa [agrees] using agree)

/-- Rows agree exactly if they do so node by node. -/
theorem allAgree_iff_forall₂ {nodes others : List Node} : allAgree nodes others = true ↔
    List.Forall₂ (fun node other => node.agrees other = true) nodes others := by
  -- The induction is on the first row, and rows of different lengths disagree.
  induction nodes generalizing others with
  | nil => cases others <;> simp [allAgree, List.forall₂_nil_left_iff]
  | cons node nodes ih => cases others <;> simp [allAgree, ih, List.forall₂_nil_right_iff]

@[simp] theorem spaced_cons_cons (node second : Node) (nodes : List Node) :
    spaced (node :: second :: nodes) = node.text ++ " " ++ spaced (second :: nodes) := rfl

/-- Rows with the same texts are spaced alike. -/
theorem spaced_congr {nodes others : List Node}
    (same : List.Forall₂ (fun node other => node.text = other.text) nodes others) :
    spaced nodes = spaced others := by
  induction same with
  | nil => rfl
  | cons first more ih =>
    -- A space follows every text but the last.
    cases more with
    | nil => exact first
    | cons second more => rw [spaced_cons_cons, spaced_cons_cons, first, ih]

/-- Induction on agreement: it holds of numbers that agree, of atoms that are the same, and of lists
whose children agree one by one. -/
theorem agrees_ind {motive : Node → Node → Prop}
    (number : ∀ value other tokens others, value.agrees other = true →
      motive (atom (.number value) tokens) (atom (.number other) others))
    (same : ∀ value tokens others, motive (atom value tokens) (atom value others))
    (list : ∀ children others tokens otherTokens, List.Forall₂ motive children others →
      motive (list children tokens) (list others otherTokens)) (node : Node) :
    ∀ other, node.agrees other = true → motive node other := by
  -- The induction is on the first node. The second has to be of the same variant, as others do not agree with
  -- it.
  induction node with
  | atom value tokens =>
    intro other agree
    cases other with
    | list => cases value <;> simp [agrees] at agree
    | atom otherValue others =>
      rcases agrees_atom agree with ⟨first, second, rfl, rfl, agree⟩ | rfl
      · exact number first second tokens others agree
      · exact same value tokens others
  | list children tokens ih =>
    intro other agree
    cases other with
    | atom => simp [agrees] at agree
    | list others otherTokens =>
      rw [agrees, allAgree_iff_forall₂] at agree
      have each := (List.forall₂_and_left children others).mpr ⟨ih, agree⟩
      exact list children others tokens otherTokens (each.imp fun _ other both => both.1 other both.2)

/-- Nodes that agree have the same text. -/
theorem text_of_agrees {node other : Node} (agree : node.agrees other = true) :
    node.text = other.text := by
  -- Atoms that agree are written alike, and a list is written from the texts of its children.
  refine agrees_ind (motive := fun node other => node.text = other.text) ?_ ?_ ?_ node other agree
  · exact fun _ _ _ _ agree => Binary64.text_of_agrees agree
  · exact fun _ _ _ => rfl
  · intro children others _ _ same
    rw [text, text, spaced_congr same]

end Node

end Sexpr
