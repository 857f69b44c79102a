import TaggedRows.Query
import TaggedRows.Record.Basic
import TaggedRows.Sql.Connection

/-!
# The store

A store keeps records of mapped types in a database. Its operations put statements together from the
mapping, run them on a connection behind a lock, and read rows back into records.

An operation is an `Action`: it notes what it does in a log, and goes from one state to the next
whether or not it fails. Its state is the handle alone, or the handle with the record that the
operation is about.
-/

namespace TaggedRows.Store

/-- What is noted in the log. -/
inductive LogEntry where
  | statement (query : String) (parameters : Nat)
  | manyRows (query : String) (rows : Nat)
  | batch (text : String)
  | loading (query : String) (parameters : Nat)
  | listing (query : String) (parameters : Nat)
  | ids (query : String) (parameters : Nat)
  | value (query : String) (parameters : Nat)
  /-- A record of a table without columns to update is not saved. -/
  | saveSkipped (table : String)
  deriving DecidableEq, Repr

namespace LogEntry

def message : LogEntry → String
  | statement .. => "Executing statement"
  | manyRows .. => "Executing statement for many rows"
  | batch .. => "Executing batch"
  | loading .. => "Loading object"
  | listing .. => "Listing objects"
  | ids .. => "Querying ids"
  | value .. => "Querying value"
  | saveSkipped .. => "No updatable columns; skipping save"

/-- What an entry says besides its message. -/
def details : LogEntry → List (String × String)
  | manyRows query rows => [("query", query), ("rows", toString rows)]
  | batch text => [("sql", text)]
  | saveSkipped table => [("table", table)]
  | statement query n | loading query n | listing query n | ids query n | value query n =>
    [("query", query), ("params", toString n)]

end LogEntry

/-- Why an operation fails. -/
inductive Failure where
  | database (fault : Sql.Fault)
  /-- The type has no key. -/
  | noKey (table : String)
  /-- The key is 0, which no stored record has to have. -/
  | keyMissing (table : String)
  | notDeleted (id : Int)
  /-- An operation broke off while it held the lock. -/
  | poisoned
  deriving DecidableEq, Repr

namespace Failure

def message : Failure → String
  | database fault => "database error: " ++ fault.message
  | noKey table => "no key field for table '" ++ table ++ "'"
  | keyMissing table => "key value missing for table '" ++ table ++ "'"
  | notDeleted id => "no record deleted for id " ++ toString id
  | poisoned => "connection lock poisoned"

end Failure

/-! ## Actions -/

/-- What an action came to. -/
structure Run (σ α : Type) where
  log : List LogEntry
  state : σ
  result : Except Failure α

def Action (σ α : Type) := σ → Run σ α

namespace Action

variable {σ τ α β : Type}

protected def pure (a : α) : Action σ α := fun s => ⟨[], s, .ok a⟩

/-- Goes on with the result of an action, in the state that it left. -/
protected def bind (x : Action σ α) (f : α → Action σ β) : Action σ β := fun s =>
  match x s with
  | ⟨log, s, .error e⟩ => ⟨log, s, .error e⟩
  | ⟨log, s, .ok a⟩ =>
    let run := f a s
    ⟨log ++ run.log, run.state, run.result⟩

instance : Monad (Action σ) where
  pure := Action.pure
  bind := Action.bind

def note (entry : LogEntry) : Action σ Unit := fun s => ⟨[entry], s, .ok ()⟩

def fail (e : Failure) : Action σ α := fun s => ⟨[], s, .error e⟩

/-- An action on the first part of the state. -/
def onFirst (x : Action σ α) : Action (σ × τ) α := fun (s, t) =>
  let run := x s
  ⟨run.log, (run.state, t), run.result⟩

end Action

open TaggedRows.Store.Action

/-! ## The handle -/

/-- A connection behind a lock. -/
structure Handle where
  connection : Sql.Connection
  isPoisoned : Bool

namespace Handle

def ofConnection (c : Sql.Connection) : Handle := ⟨c, false⟩

/-- A handle to a new empty database. -/
def inMemory : Handle := ofConnection (.toDatabase [])

end Handle

/-- The handle and a record. -/
abbrev State := Handle × Record

/-- The record that an operation is about. -/
def theRecord : Action State Record := fun s => ⟨[], s, .ok s.2⟩

def setRecord (r : Record) : Action State Unit := fun s => ⟨[], (s.1, r), .ok ()⟩

/-- Uses the connection while the lock is held. -/
def locked {α : Type} (use : Sql.Connection → Sql.Connection × Except Sql.Fault α) :
    Action Handle α := fun h =>
  if h.isPoisoned then ⟨[], h, .error .poisoned⟩
  else
    match use h.connection with
    | (c, .ok a) => ⟨[], { h with connection := c }, .ok a⟩
    | (c, .error e) => ⟨[], { h with connection := c }, .error (.database e)⟩

/-! ## Statements -/

/-- What a change came to. -/
structure Changed where
  rows : Nat
  /-- The number of the row that was inserted last. -/
  lastId : Int
  deriving DecidableEq, Repr

variable [Sql.Engine]

/-- Runs statements without parameters. -/
def executeBatch (text : String) : Action Handle Unit := do
  note (.batch text)
  locked fun c => c.executeBatch text.toList

/-- Runs one statement that gives no rows. -/
def execute (query : String) (arguments : List Sql.Argument) : Action Handle Changed := do
  note (.statement query arguments.length)
  locked fun c =>
    match c.execute query arguments with
    | (c, .ok n) => (c, .ok ⟨n, c.lastId⟩)
    | (c, .error e) => (c, .error e)

/-- Runs one statement for every row of arguments. All of it happens or nothing does. -/
def executeMany (query : String) (rows : List (List Sql.Argument)) : Action Handle Nat := do
  note (.manyRows query rows.length)
  locked fun c => c.executeMany query rows

/-- Breaks off a statement while the lock is held, which spoils the handle. -/
def poison : Action Handle Unit := do
  note (.statement "select ?" 1)
  fun h =>
    if h.isPoisoned then ⟨[], h, .error .poisoned⟩ else ⟨[], { h with isPoisoned := true }, .ok ()⟩

/-- Takes the connection out of its handle and makes a new handle for it. Nothing is left of a
poisoned handle. -/
def reopen : Action Handle Unit := fun h =>
  if h.isPoisoned then ⟨[], .inMemory, .error .poisoned⟩
  else ⟨[], .ofConnection h.connection, .ok ()⟩

/-! ## Reading single values -/

/-- Reads the first cell of a row. -/
def firstCell (kind : FieldKind) (labels : List String) (cells : List Sql.Value) :
    Except Sql.Fault FieldValue :=
  match cells with
  | [] => .error (.columnIndex 0)
  | v :: _ =>
    match kind.ofSql v with
    | .ok v => .ok v
    | .error e => .error (.misfit 0 (labels.getD 0 "") e)

/-- The first column of every row. -/
def ids (query : String) (arguments : List Sql.Argument) : Action Handle (List FieldValue) := do
  note (.ids query arguments.length)
  locked fun c =>
    match c.query query arguments with
    | (c, .error e) => (c, .error e)
    | (c, .ok result) => (c, result.rows.mapM (firstCell .key result.labels))

/-- The first column of the first row. -/
def value (kind : FieldKind) (query : String) (arguments : List Sql.Argument) :
    Action Handle FieldValue := do
  note (.value query arguments.length)
  locked fun c =>
    match c.query query arguments with
    | (c, .error e) => (c, .error e)
    | (c, .ok ⟨_, []⟩) => (c, .error .noRows)
    | (c, .ok ⟨labels, cells :: _⟩) => (c, firstCell kind labels cells)

end TaggedRows.Store
