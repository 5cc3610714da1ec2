import TransferFees.TokenSet

/-!
# Storage

Two tables: one holds at most one fee row, the other the supported tokens. The row is kept as it
was written; whether it makes a fee state is for the reader to find out. Tokens are unique in their
table, and may be there before any fee row is. The times at which rows were written are left out:
they are carried along, and nothing that is decided or answered depends on them.

Storage as a whole may also have no tables yet, or be out of order for good.
-/

namespace TransferFees

/-- The tables. -/
inductive Table where
  /-- The table of the fee row. -/
  | fees
  /-- The table of the supported tokens. -/
  | tokens
  deriving DecidableEq, Repr

/-- The name of a table. -/
def Table.name : Table → String
  | .fees => "fee_state"
  | .tokens => "supported_tokens"

/-- The one row of the fee table, as it was written. -/
structure FeeRow where
  /-- The account that may change the percent. -/
  owner : String
  /-- The percent in hundredths. -/
  percent : Int
  deriving DecidableEq

/-- The contents of the two tables. -/
structure Tables where
  /-- The fee row, if there is one. -/
  fees : Option FeeRow
  /-- The supported tokens. -/
  tokens : TokenSet
  deriving DecidableEq

/-- Tables that hold nothing. -/
def Tables.fresh : Tables := ⟨none, .empty⟩

/-- What may be found in storage. -/
inductive Storage where
  /-- There are no tables yet. -/
  | bare
  /-- The tables are there. -/
  | ready (tables : Tables)
  /-- No access succeeds. -/
  | broken
  deriving DecidableEq

/-- Why an access to storage fails. -/
inductive StorageFault where
  /-- The table is not there. -/
  | noSuchTable (table : Table)
  /-- Storage is out of order. -/
  | notADatabase
  /-- A number does not fit into a column, which holds 64 bits. -/
  | numberTooLarge
  deriving DecidableEq, Repr

/-- What a failed access reports. -/
def StorageFault.message : StorageFault → String
  | .noSuchTable table => "(sqlite3.OperationalError) no such table: " ++ table.name
  | .notADatabase => "(sqlite3.DatabaseError) file is not a database"
  | .numberTooLarge => "Python int too large to convert to SQLite INTEGER"

namespace Storage

/-- The tables, for an access that first touches the given one. -/
def tables (first : Table) : Storage → Except StorageFault Tables
  | .bare => .error (.noSuchTable first)
  | .ready tables => .ok tables
  | .broken => .error .notADatabase

/-- Creates the tables that are missing. -/
def createTables : Storage → Except StorageFault Storage
  | .bare => .ok (.ready .fresh)
  | .ready tables => .ok (.ready tables)
  | .broken => .error .notADatabase

/-- What is committed, if there are tables to look at. -/
def contents? : Storage → Option Tables
  | .ready tables => some tables
  | _ => none

end Storage

/-- Whether a number fits into a column. -/
def fitsColumn (n : Int) : Bool := -0x8000000000000000 ≤ n && n < 0x8000000000000000

end TransferFees
