import TaggedRows.Sql.Value
import TaggedRows.Timestamp

/-!
# Faults of the database

Every fault has a cause of its own, and its wording is in `Fault.message` alone. Faults in a text of
statements come with their place.
-/

namespace TaggedRows.Sql

/-- A place in a text of statements. -/
structure Place where
  text : String
  /-- The number of bytes before it. -/
  offset : Nat
  deriving DecidableEq, Repr

namespace Place

/-- The place where the given rest of a text begins. -/
def ofRest (text rest : List Char) : Place :=
  let text := String.ofList text
  ⟨text, text.utf8ByteSize - (String.ofList rest).utf8ByteSize⟩

def description (p : Place) : String := " in " ++ p.text ++ " at offset " ++ toString p.offset

end Place

/-- Why a value does not fit a field. -/
inductive Misfit where
  | kind (kindName : String)
  | range (n : Int)
  | time (fault : TimeFault)
  /-- The type of the field does not take a value of the kind. -/
  | other (kindName message : String)
  deriving DecidableEq, Repr

inductive Fault where
  -- In the text.
  | unexpected (token : String) (place : Place)
  | unrecognized (token : String) (place : Place)
  | incomplete
  | multipleStatements
  | emptyStatement
  -- In names.
  | noSuchTable (table : String)
  | noSuchColumn (column : String) (place : Place)
  /-- A column that an update should write. -/
  | noColumnToWrite (column : String)
  /-- A column that an insertion should write. -/
  | noColumnInTable (table column : String)
  | tableExists (table : String) (place : Place)
  | repeatedColumn (column : String)
  | noTables
  -- In numbers of values.
  | valuesForColumns (values columns : Nat)
  | valuesForTable (table : String) (columns values : Nat)
  | parameterCount (given needed : Nat)
  /-- An argument that its type does not convert to a value. -/
  | conversion (message : String)
  -- In rows.
  | unique (table column : String)
  | notNull (table column : String)
  | mismatch
  /-- Every number that a new row could have is taken. -/
  | full
  -- In the order of statements.
  | transactionOpen
  | nothingToCommit
  | nothingToRollBack
  -- In results.
  | noRows
  | rowsReturned
  | columnIndex (index : Nat)
  | misfit (index : Nat) (column : String) (misfit : Misfit)
  | cannotOpen (path : String)
  deriving DecidableEq, Repr

namespace Fault

def message : Fault → String
  | unexpected token place => "near \"" ++ token ++ "\": syntax error" ++ place.description
  | unrecognized token place => "unrecognized token: \"" ++ token ++ "\"" ++ place.description
  | incomplete => "incomplete input"
  | multipleStatements => "Multiple statements provided"
  | emptyStatement => "bad parameter or other API misuse"
  | noSuchTable table => "no such table: " ++ table
  | noSuchColumn column place => "no such column: " ++ column ++ place.description
  | noColumnToWrite column => "no such column: " ++ column
  | noColumnInTable table column => "table " ++ table ++ " has no column named " ++ column
  | tableExists table place => "table " ++ table ++ " already exists" ++ place.description
  | repeatedColumn column => "duplicate column name: " ++ column
  | noTables => "no tables specified"
  | valuesForColumns values columns =>
    toString values ++ " values for " ++ toString columns ++ " columns"
  | valuesForTable table columns values =>
    "table " ++ table ++ " has " ++ toString columns ++ " columns but " ++ toString values ++
      " values were supplied"
  | parameterCount given needed =>
    "Wrong number of parameters passed to query. Got " ++ toString given ++ ", needed " ++
      toString needed
  | conversion message => message
  | unique table column => "UNIQUE constraint failed: " ++ table ++ "." ++ column
  | notNull table column => "NOT NULL constraint failed: " ++ table ++ "." ++ column
  | mismatch => "datatype mismatch"
  | full => "database or disk is full"
  | transactionOpen => "cannot start a transaction within a transaction"
  | nothingToCommit => "cannot commit - no transaction is active"
  | nothingToRollBack => "cannot rollback - no transaction is active"
  | noRows => "Query returned no rows"
  | rowsReturned => "Execute returned results - did you mean to call query?"
  | columnIndex index => "Invalid column index: " ++ toString index
  | misfit index column (.kind kindName) =>
    "Invalid column type " ++ kindName ++ " at index: " ++ toString index ++ ", name: " ++ column
  | misfit index _ (.range n) =>
    "Integer " ++ toString n ++ " out of range at index " ++ toString index
  | misfit index _ (.time fault) =>
    "Conversion error from type Text at index: " ++ toString index ++ ", " ++ fault.message
  | misfit index _ (.other kindName message) =>
    "Conversion error from type " ++ kindName ++ " at index: " ++ toString index ++ ", " ++ message
  | cannotOpen path => "unable to open database file: " ++ path

end Fault

end TaggedRows.Sql
