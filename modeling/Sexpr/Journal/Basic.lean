import Sexpr.Error

/-! A journal of what happened, kept beside results and errors alike. -/

namespace Sexpr

/-- How grave a record is. -/
inductive Level where
  | unset
  | debug
  | info
  | warning
  | error
  | critical
deriving DecidableEq, Repr

namespace Level

/-- The rank of a level; graver levels have higher ranks. -/
def rank : Level → Nat
  | unset => 0
  | debug => 10
  | info => 20
  | warning => 30
  | error => 40
  | critical => 50

/-- The word for a level. -/
def text : Level → String
  | unset => "NOTSET"
  | debug => "DEBUG"
  | info => "INFO"
  | warning => "WARNING"
  | error => "ERROR"
  | critical => "CRITICAL"

/-- The least level that is kept, with debugging on or off. -/
def threshold (debugging : Bool) : Level := if debugging then debug else info

end Level

/-- One line of a journal: who wrote it, how grave it is, and what it says. -/
structure Record where
  channel : String
  level : Level
  message : String
deriving DecidableEq, Repr

/-- A record as it is printed. -/
def Record.line (record : Record) : String :=
  record.level.text ++ ":" ++ record.channel ++ ":" ++ record.message ++ "\n"

/-- The records of a journal that are grave enough. -/
def keepFrom (least : Level) (records : List Record) : List Record :=
  records.filter fun record => least.rank ≤ record.level.rank

/-- A journal of one record, or of none where its level is unset. -/
def journalOf (channel message : String) (level : Level) : List Record :=
  if level = .unset then [] else [{ channel, level, message }]

/-- A result or an error, and the records kept on the way to it. An error does not undo them. -/
structure Logged (ε α : Type) where
  result : Except ε α
  records : List Record := []

namespace Logged

variable {ε δ α β : Type}

instance : Monad (Logged ε) where
  pure value := ⟨.ok value, []⟩
  bind first next :=
    match first.result with
    | .error error => ⟨.error error, first.records⟩
    | .ok value =>
      let second := next value
      ⟨second.result, first.records ++ second.records⟩

/-- Goes on from an error. The records kept before it stay. -/
def handle (first : Logged ε α) (next : ε → Logged δ α) : Logged δ α :=
  match first.result with
  | .ok value => ⟨.ok value, first.records⟩
  | .error error =>
    -- What was recorded before the error stays in front.
    let second := next error
    ⟨second.result, first.records ++ second.records⟩

instance : MonadExcept ε (Logged ε) where
  throw error := ⟨.error error, []⟩
  tryCatch := handle

/-- A result or an error without records. -/
def silently (result : Except ε α) : Logged ε α := ⟨result, []⟩

/-- Adds a record. -/
def record (channel message : String) (level : Level := .debug) : Logged ε Unit :=
  ⟨.ok (), journalOf channel message level⟩

/-- Fails with an error, once its words are on record. -/
def fail (channel : String) (error : Error) (level : Level := .debug) : Logged Error α :=
  ⟨.error error, journalOf channel error.text level⟩

/-- A result as it is, or an error with its words on record. -/
def ofExcept (channel : String) : Except Error α → Logged Error α
  | .ok value => pure value
  | .error error => fail channel error

/-- The same records with another sort of error. -/
def mapError (change : ε → δ) (computation : Logged ε α) : Logged δ α :=
  ⟨computation.result.mapError change, computation.records⟩

@[simp] theorem result_pure (value : α) : (pure value : Logged ε α).result = .ok value := rfl

@[simp] theorem result_bind (first : Logged ε α) (next : α → Logged ε β) :
    (first >>= next).result = first.result >>= fun value => (next value).result := by
  obtain ⟨result, records⟩ := first
  cases result <;> rfl

instance : LawfulMonad (Logged ε) := LawfulMonad.mk' (Logged ε)
  (by
    intro α computation
    obtain ⟨result, records⟩ := computation
    cases result <;> simp [Functor.map])
  (by intros; rfl)
  (by
    intro α β γ first second third
    obtain ⟨result, records⟩ := first
    cases result with
    | error => rfl
    | ok value =>
      simp only [Bind.bind]
      cases (second value).result <;> simp [List.append_assoc])

@[simp] theorem result_map (change : α → β) (computation : Logged ε α) :
    (change <$> computation).result = change <$> computation.result := by
  obtain ⟨result, records⟩ := computation
  cases result <;> rfl

/-- The result of a row of computations is that of the row of their results. -/
@[simp] theorem result_mapM (act : α → Logged ε β) (values : List α) :
    (values.mapM act).result = values.mapM fun value => (act value).result := by
  induction values with
  | nil => rfl
  | cons value values ih => simp [ih]

@[simp] theorem result_record (channel message : String) (level : Level) :
    (record channel message level : Logged ε Unit).result = .ok () := rfl

@[simp] theorem result_ofExcept (channel : String) (result : Except Error α) :
    (ofExcept channel result).result = result := by
  cases result <;> rfl

@[simp] theorem result_mapError (change : ε → δ) (computation : Logged ε α) :
    (computation.mapError change).result = computation.result.mapError change := rfl

end Logged

end Sexpr
