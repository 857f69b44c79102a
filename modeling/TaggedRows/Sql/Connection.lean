import TaggedRows.Sql.Argument
import TaggedRows.Sql.Plan

/-!
# Connections

A connection runs statements on a database. A statement that fails has no effect on the tables. From
`begin` on the database as it was is kept, and `rollback` goes back to it.

`Connection.execute`, `query`, `executeBatch` and `executeMany` are the ways to run a text. The
number of the row that was inserted last and the number of rows that were changed last belong to the
connection, and going back does not reset them.
-/

namespace TaggedRows.Sql

variable [Engine]

/-! ## Selections -/

namespace Selection

variable (s : Selection) (parameters : List Value)

/-- Orders two rows by the keys of a selection. -/
def compareRows (a b : Row) : List (SortKey Cell) → Ordering
  | [] => .eq
  | key :: keys =>
    let o := (Term.eval ⟨parameters, a, 0⟩ key.expr).compare
      (Term.eval ⟨parameters, b, 0⟩ key.expr)
    match o with
    | .eq => compareRows a b keys
    | o => if key.isDescending then o.swap else o

/-- The rows in the order in which they are visited. -/
def visited (rows : List Row) : List Row :=
  match s.scan with
  | none => rows
  | some i =>
    rows.mergeSort fun a b => (a.cells.getD i .null).compare (b.cells.getD i .null) ≠ .gt

/-- The rows that satisfy the condition, in their final order. -/
def matching (rows : List Row) : List Row :=
  let rows := (s.visited rows).filter (Term.holds s.condition parameters)
  if s.order.isEmpty then rows
  else rows.mergeSort fun a b => compareRows parameters a b s.order ≠ .gt

/-- The number that a limit gives. -/
def bound (limit : Option Term) : Except Fault (Option Int) :=
  match limit with
  | none => .ok none
  | some t =>
    match Table.idOf? (Term.eval ⟨parameters, ⟨0, []⟩, 0⟩ t) with
    | some n => .ok (some n)
    | none => .error .mismatch

/-- The shown part of some rows; a negative limit is none. -/
def window {α : Type} (limit offset : Option Int) (rows : List α) : List α :=
  let rows := rows.drop (offset.getD 0).toNat
  match limit with
  | some n => if n < 0 then rows else rows.take n.toNat
  | none => rows

/-- The cells of a result row. A count is taken over all matching rows, and gives one row. -/
def project (rows : List Row) : List (List Value) :=
  let show_ (row : Row) := s.items.map fun (t, _) => Term.eval ⟨parameters, row, rows.length⟩ t
  if s.items.any fun (t, _) => t.counts then [show_ (rows.getLast?.getD ⟨0, []⟩)]
  else rows.map show_

/-- The result of a selection. -/
def rows (db : Database) : Except Fault (List (List Value)) := do
  let rows ← match s.table with
    | none => .ok [⟨0, []⟩]
    | some name => (db.table name).map Table.rows
  let limit ← bound parameters s.limit
  let offset ← bound parameters s.offset
  return window limit offset (s.project parameters (s.matching parameters rows))

end Selection

/-! ## Declarations -/

/-- The column that is declared. -/
def Column.ofDecl (c : ColumnDecl) : Column :=
  ⟨c.name, .ofType c.type, c.isNotNull, c.isUnique, c.fallback.eval ⟨[], ⟨0, []⟩, 0⟩⟩

/-- An empty table with the declared columns. -/
def Table.ofDecls (name : String) (columns : List ColumnDecl) : Table where
  name
  columns := columns.map .ofDecl
  key := columns.findIdx? ColumnDecl.isPrimary
  rows := []

/-! ## Changes -/

/-- What a change of a database came to. -/
structure Effect where
  database : Database
  /-- The number of rows that it concerned. -/
  changes : Nat
  /-- The number of the last new row. -/
  lastId : Option Int

namespace Effect

/-- Adds rows to a table one after another. -/
def insertRows (replaces : Bool) (parameters : List Value) (t : Table) (lastId : Option Int) :
    List (List (Option Term)) → Except Fault (Table × Option Int)
  | [] => .ok (t, lastId)
  | sources :: rest => do
    let values := (t.columns.zip sources).map fun (column, source) =>
      match source with
      | some e => Term.eval ⟨parameters, ⟨0, []⟩, 0⟩ e
      | none => column.fallback
    let (t, id) ← if replaces then t.replace values else t.insert values
    insertRows replaces parameters t (some id) rest

/-- Changes rows of a table one after another. -/
def updateRows (changes : List (Nat × Term)) (parameters : List Value) (t : Table) :
    List Row → Except Fault Table
  | [] => .ok t
  | row :: rest => do
    let values := changes.map fun (i, e) => (i, Term.eval ⟨parameters, row, 0⟩ e)
    updateRows changes parameters (← t.update row values) rest

/-- The effect of a plan that changes a table; none for all others. -/
def ofPlan (db : Database) (parameters : List Value) : Plan → Option (Except Fault Effect)
  | .insert replaces table rows => some do
    let (t, id) ← insertRows replaces parameters (← db.table table) none rows
    return ⟨db.setTable t, rows.length, id⟩
  | .update table changes condition => some do
    let t ← db.table table
    let rows := t.rows.filter (Term.holds condition parameters)
    return ⟨db.setTable (← updateRows changes parameters t rows), rows.length, none⟩
  | .delete table condition => some do
    let t ← db.table table
    let p := Term.holds condition parameters
    return ⟨db.setTable (t.remove p), t.rows.countP p, none⟩
  | _ => none

end Effect

/-! ## Connections -/

structure Connection where
  database : Database
  /-- The database as it was when the open transaction began. -/
  saved : Option Database
  /-- The number of the row that was inserted last; 0 before the first one. -/
  lastId : Int
  /-- The number of rows that were changed last. -/
  changes : Nat

namespace Connection

/-- A new connection to a database. -/
def toDatabase (db : Database) : Connection := ⟨db, none, 0, 0⟩

variable (c : Connection)

/-- The database without the changes of an open transaction. -/
def committed : Database := c.saved.getD c.database

/-- Runs a plan. A failed change counts as a change of no rows. -/
def step (parameters : List Value) (p : Plan) : Connection × Except Fault (List (List Value)) :=
  match Effect.ofPlan c.database parameters p with
  | some (.error e) => ({ c with changes := 0 }, .error e)
  | some (.ok effect) =>
    ({ c with
      database := effect.database
      changes := effect.changes
      lastId := effect.lastId.getD c.lastId }, .ok [])
  | none =>
    match p with
    | .select s => (c, s.rows parameters c.database)
    | .create name columns => ({ c with database := c.database ++ [.ofDecls name columns] }, .ok [])
    | .drop name => ({ c with database := c.database.dropTable name }, .ok [])
    | .begin =>
      match c.saved with
      | some _ => (c, .error .transactionOpen)
      | none => ({ c with saved := some c.database }, .ok [])
    | .commit =>
      match c.saved with
      | some _ => ({ c with saved := none }, .ok [])
      | none => (c, .error .nothingToCommit)
    | .rollback =>
      match c.saved with
      | some db => ({ c with database := db, saved := none }, .ok [])
      | none => (c, .error .nothingToRollBack)
    | _ => (c, .ok [])

/-- Runs a prepared statement with the values that its arguments are converted to. -/
def run (p : Option Prepared) (arguments : List Argument) :
    Connection × Except Fault (List (List Value)) :=
  match Argument.boundFor ((p.map Prepared.parameters).getD 0) arguments with
  | .error e => (c, .error e)
  | .ok parameters =>
    match p with
    | none => (c, .error .emptyStatement)
    | some p => c.step parameters p.plan

/-- Runs a prepared statement that gives no rows, and gives the number of rows that were changed
last. -/
def runChange (p : Option Prepared) (arguments : List Argument) : Connection × Except Fault Nat :=
  match c.run p arguments with
  | (c, .error e) => (c, .error e)
  | (c, .ok []) => (c, .ok c.changes)
  | (c, .ok (_ :: _)) => (c, .error .rowsReturned)

/-- The result of a query. -/
structure Result where
  /-- The names of the columns. -/
  labels : List String
  rows : List (List Value)

/-- The names of the columns of a result. -/
def labelsOf : Option Prepared → List String
  | some ⟨.select s, _⟩ => s.items.map Prod.snd
  | _ => []

/-- Runs a text of one statement that gives no rows. -/
def execute (text : String) (arguments : List Argument) : Connection × Except Fault Nat :=
  match Prepared.only c.database text.toList with
  | .error e => (c, .error e)
  | .ok p => c.runChange p arguments

/-- Runs a text of one statement and gives its rows. -/
def query (text : String) (arguments : List Argument) : Connection × Except Fault Result :=
  match Prepared.only c.database text.toList with
  | .error e => (c, .error e)
  | .ok p =>
    let (c, r) := c.run p arguments
    (c, r.map fun rows => ⟨labelsOf p, rows⟩)

/-- Runs the statements of a text one after another up to the first that fails. Parameters are
null. -/
def executeBatch (c : Connection) (text : List Char) : Connection × Except Fault Unit :=
  match Prepared.first c.database text with
  | .error e => (c, .error e)
  | .ok (none, _) => (c, .ok ())
  | .ok (some p, rest) =>
    match c.step [] p.plan with
    | (c, .error e) => (c, .error e)
    | (c, .ok _) =>
      if rest.length < text.length ∧ rest ≠ [] then executeBatch c rest else (c, .ok ())
termination_by text.length

/-- Runs a prepared statement with one row of arguments after another up to the first that fails,
and gives the number of rows that were changed in all. -/
def runMany (p : Option Prepared) (c : Connection) :
    List (List Argument) → Connection × Except Fault Nat
  | [] => (c, .ok 0)
  | arguments :: rest =>
    match c.runChange p arguments with
    | (c, .error e) => (c, .error e)
    | (c, .ok n) =>
      let (c, r) := runMany p c rest
      (c, r.map (n + ·))

/-- Goes back to the beginning of the open transaction, if there is one. -/
def abandon : Connection :=
  match c.saved with
  | some db => { c with database := db, saved := none }
  | none => c

/-- Runs a text of one statement for every row of arguments, within one transaction. -/
def executeMany (text : String) (rows : List (List Argument)) : Connection × Except Fault Nat :=
  match c.step [] .begin with
  | (c, .error e) => (c, .error e)
  | (c, .ok _) =>
    match Prepared.only c.database text.toList with
    | .error e => (c.abandon, .error e)
    | .ok p =>
      match runMany p c rows with
      | (c, .error e) => (c.abandon, .error e)
      | (c, .ok n) =>
        match c.step [] .commit with
        | (c, .error e) => (c.abandon, .error e)
        | (c, .ok _) => (c, .ok n)

end Connection

end TaggedRows.Sql
