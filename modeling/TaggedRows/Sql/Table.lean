import TaggedRows.Sql.Expr
import TaggedRows.Sql.Fault

/-!
# Tables

A table keeps its rows in the order of their numbers. One of its columns may be the *key*: its cells
are the numbers of the rows. All other cells are kept in the form that the affinity of their column
prefers.

* `Table.insert` adds a row, and chooses its number where none is given: one more than the greatest,
  as long as there is such a number.
* `Table.replace` adds a row in the place of all rows that it conflicts with.
* `Table.update` changes cells of one row.
* `Table.remove` takes rows away.

An operation that fails leaves the table as it is.
-/

namespace TaggedRows.Sql

structure Column where
  name : String
  affinity : Affinity
  isNotNull : Bool
  isUnique : Bool
  /-- The value where none is given. -/
  fallback : Value
  deriving DecidableEq, Repr

structure Table where
  name : String
  columns : List Column
  /-- The place of the key among the columns. -/
  key : Option Nat
  rows : List Row
  deriving DecidableEq, Repr

/-- Names do not tell upper from lower case. -/
def sameName (a b : String) : Bool := a.toLower = b.toLower

namespace Table

variable (t : Table)

/-- The place of a column. -/
def columnIndex? (name : String) : Option Nat := t.columns.findIdx? (sameName ·.name name)

/-- The name of the column at a place. -/
def columnName (i : Nat) : String := ((t.columns[i]?).map Column.name).getD ""

def keyName : String := (t.key.map t.columnName).getD ""

def find? (id : Int) : Option Row := t.rows.find? (·.id = id)

/-- Puts a row in its place in the order. -/
def insertOrdered (row : Row) : List Row → List Row
  | [] => [row]
  | r :: rs => if row.id ≤ r.id then row :: r :: rs else r :: insertOrdered row rs

def put (row : Row) : Table := { t with rows := insertOrdered row t.rows }

/-- Takes the row with a number away. -/
def erase (id : Int) : Table := { t with rows := t.rows.filter (·.id ≠ id) }

/-! ## Numbers of rows -/

variable [Engine]

/-- One more than the greatest number, or what the engine chooses where there is no more. -/
def freshId : Int :=
  match t.rows.getLast? with
  | none => 1
  | some r => if r.id < maxInteger then r.id + 1 else Engine.spare (t.rows.map Row.id)

/-- The number of a row that comes without one. -/
def chosenId : Except Fault Int :=
  if t.freshId ≤ maxInteger then .ok t.freshId else .error .full

/-- The number that a value gives to a row, if it is one. -/
def idOf? (v : Value) : Option Int :=
  match Affinity.integer.apply v with
  | .integer n => some n
  | _ => none

/-- The number of a new row with the given values. -/
def newId (values : List Value) : Except Fault Int :=
  match t.key with
  | none => t.chosenId
  | some k =>
    match values.getD k .null with
    | .null => t.chosenId
    | v =>
      match idOf? v with
      | some n => .ok n
      | none => .error .mismatch

/-! ## Constraints -/

/-- The cells of a row for a column each. A null where none may be is refused, or gives way to the
value that the column falls back to. -/
def cellsOf (fallsBack : Bool) (id : Int) (values : List Value) : Except Fault (List Value) :=
  (t.columns.zip values).zipIdx.mapM fun ((column, v), i) =>
    if t.key = some i then .ok (.integer id)
    else
      match column.affinity.apply v with
      | .null =>
        if !column.isNotNull then .ok .null
        else if fallsBack && column.fallback ≠ .null then
          .ok (column.affinity.apply column.fallback)
        else .error (.notNull t.name column.name)
      | v => .ok v

/-- Another row than the one with a number has the same value in a column. -/
def conflict? (id : Option Int) (i : Nat) (v : Value) : Option Row :=
  if v = .null then none
  else t.rows.find? fun r => some r.id ≠ id && (r.cells.getD i .null).compare v = .eq

/-- The places of the columns without repeated values. -/
def uniqueColumns : List Nat :=
  (t.columns.zipIdx.filter fun (column, _) => column.isUnique).map Prod.snd

/-- Refuses cells that other rows than the one with a number have, in the given columns. -/
def checkUnique (id : Option Int) (columns : List Nat) (cells : List Value) : Except Fault Unit :=
  columns.forM fun i =>
    if (t.conflict? id i (cells.getD i .null)).isSome then
      .error (.unique t.name (t.columnName i))
    else .ok ()

/-! ## Operations -/

/-- Adds a row, and gives its number. -/
def insert (values : List Value) : Except Fault (Table × Int) := do
  let id ← t.newId values
  let cells ← t.cellsOf false id values
  if (t.find? id).isSome then .error (.unique t.name t.keyName)
  t.checkUnique none t.uniqueColumns cells
  return (t.put ⟨id, cells⟩, id)

/-- Takes away the rows that the cells conflict with in the given columns. -/
def eraseConflicts (columns : List Nat) (cells : List Value) : Table :=
  columns.foldl
    (fun t i =>
      match t.conflict? none i (cells.getD i .null) with
      | some r => t.erase r.id
      | none => t)
    t

/-- Adds a row in the place of the rows that it conflicts with, and gives its number. -/
def replace (values : List Value) : Except Fault (Table × Int) := do
  let id ← t.newId values
  let cells ← t.cellsOf true id values
  let rest := (t.erase id).eraseConflicts t.uniqueColumns cells
  return (rest.put ⟨id, cells⟩, id)

/-- The number of a row after a change of its cells. -/
def changedId (row : Row) (changes : List (Nat × Value)) : Except Fault Int :=
  match t.key with
  | none => .ok row.id
  | some k =>
    match changes.reverse.lookup k with
    | none => .ok row.id
    | some v =>
      match idOf? v with
      | some n => .ok n
      | none => .error .mismatch

/-- The cells of a row after a change; a null is refused in a changed column that may hold none. -/
def changedCells (row : Row) (id : Int) (changes : List (Nat × Value)) :
    Except Fault (List Value) :=
  (t.columns.zip row.cells).zipIdx.mapM fun ((column, old), i) =>
    if t.key = some i then .ok (.integer id)
    else
      match changes.reverse.lookup i with
      | none => .ok old
      | some v =>
        let v := column.affinity.apply v
        if column.isNotNull && v = .null then .error (.notNull t.name column.name) else .ok v

/-- Changes cells of a row, given by the places of their columns. -/
def update (row : Row) (changes : List (Nat × Value)) : Except Fault Table := do
  let id ← t.changedId row changes
  let cells ← t.changedCells row id changes
  if id ≠ row.id && (t.find? id).isSome then .error (.unique t.name t.keyName)
  let columns := t.uniqueColumns.filter fun i =>
    id ≠ row.id || (changes.lookup i).isSome
  t.checkUnique (some row.id) columns cells
  return (t.erase row.id).put ⟨id, cells⟩

/-- Takes away the rows that satisfy a condition. -/
def remove (p : Row → Bool) : Table := { t with rows := t.rows.filter fun r => !p r }

end Table

/-! ## Databases -/

/-- The tables of a database. -/
abbrev Database := List Table

namespace Database

def table? (db : Database) (name : String) : Option Table := List.find? (sameName ·.name name) db

/-- Puts a table in the place of the one of its name. -/
def setTable (db : Database) (t : Table) : Database :=
  List.map (fun u => if sameName u.name t.name then t else u) db

def dropTable (db : Database) (name : String) : Database :=
  List.filter (fun t => !sameName t.name name) db

/-- The table of a name, or the fault that there is none. -/
def table (db : Database) (name : String) : Except Fault Table :=
  match db.table? name with
  | some t => .ok t
  | none => .error (.noSuchTable name)

end Database

end TaggedRows.Sql
