import TaggedRows.RowMapping
import TaggedRows.Text.Split

/-!
# The statements for a mapped type

Statements are put together from the table and the lists of columns. Values never stand in the
text: every one is bound to a `?`. A list of columns is one text with commas between the names, so a
name with a comma in it counts as several columns; names are otherwise used as they are.
-/

namespace TaggedRows

/-- What the statements for a type say about it. -/
structure TableAccess where
  table : String
  /-- The key column, or nothing. -/
  keyField : String
  selectFields : String
  insertFields : String
  updateFields : String
  deriving DecidableEq, Repr

/-- The table access of a mapped type. -/
def RowMapping.access (m : RowMapping) : TableAccess where
  table := m.table
  keyField := m.keyColumn
  selectFields := m.selectFields
  insertFields := m.insertFields
  updateFields := m.updateFields

namespace Query

/-- The columns in a list; an empty list has none. -/
def columnsOf (fields : String) : List String :=
  if fields = "" then [] else Text.piecesOf ',' fields

/-- The number of columns in a list. -/
def fieldCount (fields : String) : Nat := (columnsOf fields).length

/-- Some `?` separated by commas. -/
def placeholders (n : Nat) : String := ",".intercalate (List.replicate n "?")

/-- Every column of a list set to a `?`. -/
def setParams (fields : String) : String :=
  ",".intercalate ((columnsOf fields).map (· ++ "=?"))

/-- Inserts or replaces one row with the given columns. -/
def write (verb table fields : String) : String :=
  if fieldCount fields = 0 then verb ++ " into " ++ table ++ " default values"
  else
    verb ++ " into " ++ table ++ " (" ++ fields ++ ") values(" ++
      placeholders (fieldCount fields) ++ ")"

def replace (table fields : String) : String := write "replace" table fields

/-- The condition that every one of the columns equals a bound value. -/
def conditionClause (columns : List String) : String :=
  if columns = [] then ""
  else "where " ++ " and ".intercalate (columns.map (· ++ "=?"))

variable (a : TableAccess)

/-- Selects all columns of the type, with a clause behind if there is one. -/
def select (clause : String) : String :=
  let query := "select " ++ a.selectFields ++ " from " ++ a.table
  if clause = "" then query else query ++ " " ++ clause

/-- Selects the row with a key. -/
def selectByKey : String := select a ("where " ++ a.keyField ++ "=?")

/-- Inserts all columns but the key, which the database chooses. -/
def insert : String := write "insert" a.table a.insertFields

/-- Updates the columns that updates write in the row with a key. -/
def update : String :=
  "update " ++ a.table ++ " set " ++ setParams a.updateFields ++ " where " ++ a.keyField ++ "=?"

/-- Deletes the row with a key. -/
def delete : String := "delete from " ++ a.table ++ " where " ++ a.keyField ++ "=?"

end Query

end TaggedRows
