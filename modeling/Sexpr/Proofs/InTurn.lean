import Mathlib.Data.List.Forall2

/-! Computations in turn: a row of them succeeds if each does, and fails as the first of them that fails. -/

namespace Sexpr

variable {ε α β : Type} {act : α → Except ε β}

/-- Acting on the first value of a row comes first, and what is behind is acted on if that succeeds. -/
theorem mapM_cons_eq (value : α) (values : List α) : (value :: values).mapM act =
    (act value).bind fun result => (values.mapM act).map (result :: ·) := by
  -- The first action ends the row or goes on to the others.
  rw [List.mapM_cons]
  cases act value with
  | error error => rfl
  | ok result => cases values.mapM act <;> rfl

/-- A row of values is acted on with success just if that is so of each of them. -/
theorem mapM_eq_ok_iff {values : List α} {results : List β} : values.mapM act = .ok results ↔
    List.Forall₂ (fun value result => act value = .ok result) values results := by
  -- The induction is on the values, with the results left open.
  induction values generalizing results with
  | nil => simp [Pure.pure, Except.pure, eq_comm]
  | cons value values ih =>
    rw [mapM_cons_eq]
    cases acted : act value with
    | error error => cases results <;> simp [Except.bind, acted]
    | ok result =>
      -- The results of the values behind are those of their own row.
      cases others : values.mapM act with
      | error error => cases results <;> simp [Except.bind, Except.map, ← ih, acted, others]
      | ok more => cases results <;> simp [Except.bind, Except.map, ← ih, acted, others]

/-- A row of values is acted on with success if any result at all comes of each of them, and only then. -/
theorem exists_mapM_eq_ok_iff {values : List α} : (∃ results, values.mapM act = .ok results) ↔
    ∀ value ∈ values, ∃ result, act value = .ok result := by
  -- The first error ends the row, so by induction all actions succeed or one of them does not.
  induction values with
  | nil => simp [Pure.pure, Except.pure]
  | cons value values ih =>
    rw [mapM_cons_eq, List.forall_mem_cons, ← ih]
    cases act value with
    | error error => simp [Except.bind]
    | ok result => cases values.mapM act <;> simp [Except.bind, Except.map]

/-- If acting on each value of a row has a result with a property, then acting on the row has such results. -/
theorem mapM_of_each {holds : α → β → Prop} {values : List α}
    (each : ∀ value ∈ values, ∃ result, act value = .ok result ∧ holds value result) :
    ∃ results, values.mapM act = .ok results ∧ List.Forall₂ holds values results := by
  -- Each action succeeds, so all in a row do.
  obtain ⟨results, succeeded⟩ := exists_mapM_eq_ok_iff.mpr fun value member =>
    (each value member).imp fun _ found => found.1
  -- The results that were found one by one are those of the row.
  have paired := (List.forall₂_and_left values results).mpr ⟨each, mapM_eq_ok_iff.mp succeeded⟩
  refine ⟨results, succeeded, paired.imp ?_⟩
  rintro value result ⟨⟨found, acted, has⟩, same⟩
  obtain rfl := Except.ok.inj (acted.symm.trans same)
  exact has

/-- Each result that acting on a row of values has is that for one of them. -/
theorem exists_of_mem_mapM {values : List α} {results : List β}
    (succeeded : values.mapM act = .ok results) :
    ∀ result ∈ results, ∃ value ∈ values, act value = .ok result := by
  -- The results stand in the order of their values.
  have each := mapM_eq_ok_iff.mp succeeded
  clear succeeded
  induction each with
  | nil => simp
  | cons first _ ih =>
    rw [List.forall_mem_cons]
    refine ⟨⟨_, List.mem_cons_self, first⟩, fun result member => ?_⟩
    obtain ⟨value, among, acted⟩ := ih result member
    exact ⟨value, List.mem_cons_of_mem _ among, acted⟩

/-- Acting on a row of values fails just as acting on the first of them that it fails on. -/
theorem mapM_eq_error_iff {values : List α} {error : ε} : values.mapM act = .error error ↔
    ∃ before value after, values = before ++ value :: after ∧
      (∀ earlier ∈ before, ∃ result, act earlier = .ok result) ∧ act value = .error error := by
  -- The induction is on the values, as the first error ends the row.
  induction values with
  | nil => simp [Pure.pure, Except.pure]
  | cons first values ih =>
    rw [mapM_cons_eq]
    constructor
    · intro failed
      cases acted : act first with
      | error other =>
        rw [acted] at failed
        cases failed
        exact ⟨[], first, values, rfl, by simp, acted⟩
      | ok result =>
        cases others : values.mapM act with
        | ok more =>
          rw [acted, others] at failed
          cases failed
        | error other =>
          rw [acted, others] at failed
          cases failed
          obtain ⟨before, value, after, rfl, succeed, fails⟩ := ih.mp others
          exact ⟨first :: before, value, after, rfl, by simpa [acted] using succeed, fails⟩
    · rintro ⟨before, value, after, parts, succeed, fails⟩
      cases before with
      | nil =>
        cases parts
        rw [fails]
        rfl
      | cons earlier before =>
        cases parts
        obtain ⟨⟨result, acted⟩, others⟩ := List.forall_mem_cons.mp succeed
        rw [acted, ih.mpr ⟨before, value, after, rfl, others, fails⟩]
        rfl

/-- Whether a computation succeeds, and the error with which it fails. -/
def settled (outcome : Except ε α) : Except ε Unit := outcome.map fun _ => ()

/-- A row of values is acted on to the end of its first value, and if that succeeds to the end of the others. -/
theorem settled_mapM_cons (value : α) (values : List α) : settled ((value :: values).mapM act) =
    (settled (act value)).bind fun _ => settled (values.mapM act) := by
  -- What the actions return is left out, so only their errors matter.
  rw [mapM_cons_eq]
  cases act value with
  | error error => rfl
  | ok result => cases values.mapM act <;> rfl

/-- Two rows are acted on to the end of the first, and if that succeeds to the end of the second. -/
theorem settled_mapM_append (values others : List α) : settled ((values ++ others).mapM act) =
    (settled (values.mapM act)).bind fun _ => settled (others.mapM act) := by
  -- The others come after the last of the first values, by induction on these.
  induction values with
  | nil => rfl
  | cons value values ih =>
    rw [List.cons_append, settled_mapM_cons, settled_mapM_cons, ih]
    cases act value <;> rfl

/-- Acting on a row of values ends as acting on all of their parts does, if that is so of each of them. -/
theorem settled_mapM_flatMap {γ δ : Type} {actPart : γ → Except ε δ} {parts : α → List γ} {values : List α}
    (each : ∀ value ∈ values, settled (act value) = settled ((parts value).mapM actPart)) :
    settled (values.mapM act) = settled ((values.flatMap parts).mapM actPart) := by
  induction values with
  | nil => rfl
  | cons value values ih =>
    -- The first value ends as its parts do, and the others as theirs.
    obtain ⟨first, more⟩ := List.forall_mem_cons.mp each
    rw [settled_mapM_cons, List.flatMap_cons, settled_mapM_append, first, ih more]

/-- Computations that end alike fail with the same error. -/
theorem eq_error_iff_of_settled {first : Except ε α} {second : Except ε β}
    (alike : settled first = settled second) (error : ε) : first = .error error ↔ second = .error error := by
  cases first <;> cases second <;> simp_all [settled, Except.map]

/-- Computations that end alike succeed alike. -/
theorem exists_ok_iff_of_settled {first : Except ε α} {second : Except ε β}
    (alike : settled first = settled second) :
    (∃ result, first = .ok result) ↔ ∃ result, second = .ok result := by
  cases first <;> cases second <;> simp_all [settled, Except.map]

end Sexpr
