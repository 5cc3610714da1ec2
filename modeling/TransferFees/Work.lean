import TransferFees.Log

/-!
# Units of work

A unit of work reads and writes a draft of storage and adds to the log. When it fails, what it has
written so far is still in the draft. `commit` runs a unit of work on what is stored: if it succeeds
the draft is kept, and if it fails the draft is dropped. The log is kept in both cases.
-/

namespace TransferFees

/-- A draft of storage, and the log so far. -/
structure Draft where
  /-- What the unit of work sees as stored. -/
  storage : Storage
  /-- The entries so far, in order. -/
  log : List LogEntry

/-- A computation on a draft that may fail. -/
def Work (α : Type) : Type := Draft → Except FeeError α × Draft

namespace Work

variable {α β : Type}

/-- Gives a value and touches nothing. -/
def give (a : α) : Work α := fun d => (.ok a, d)

/-- Fails and touches nothing. -/
def fail (e : FeeError) : Work α := fun d => (.error e, d)

/-- One unit of work, and then the next with the value of the first, unless the first fails. -/
def andThen (w : Work α) (f : α → Work β) : Work β := fun d =>
  match w d with
  | (.ok a, d) => f a d
  | (.error e, d) => (.error e, d)

instance : Monad Work where
  pure := give
  bind := andThen

/-- A computation that touches no draft. -/
def ofExcept : Except FeeError α → Work α
  | .ok a => give a
  | .error e => fail e

/-- The tables of the draft, for an access that first touches the given one. -/
def readTables (first : Table) : Work Tables := fun d =>
  match d.storage.tables first with
  | .ok tables => (.ok tables, d)
  | .error fault => (.error (.storage fault), d)

/-- Puts other tables into the draft. -/
def writeTables (tables : Tables) : Work Unit := fun d =>
  (.ok (), { d with storage := .ready tables })

/-- Adds an entry to the log. -/
def record (entry : LogEntry) : Work Unit := fun d =>
  (.ok (), { d with log := d.log ++ [entry] })

theorem pure_apply (a : α) (d : Draft) : (pure a : Work α) d = (.ok a, d) := rfl

theorem bind_apply (w : Work α) (f : α → Work β) (d : Draft) :
    (w >>= f) d = match w d with
      | (.ok a, d) => f a d
      | (.error e, d) => (.error e, d) := rfl

/-- What running a unit of work against storage leaves behind. -/
structure Outcome (α : Type) where
  /-- The value, or why there is none. -/
  result : Except FeeError α
  /-- What is stored afterwards. -/
  storage : Storage
  /-- The entries that were written. -/
  log : List LogEntry

/-- Runs a unit of work: its draft becomes what is stored if it succeeds, and only then. -/
def commit (w : Work α) (storage : Storage) : Outcome α :=
  match w ⟨storage, []⟩ with
  | (.ok a, d) => ⟨.ok a, d.storage, d.log⟩
  | (.error e, d) => ⟨.error e, storage, d.log⟩

end Work

end TransferFees
