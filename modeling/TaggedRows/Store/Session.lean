import TaggedRows.FileTree
import TaggedRows.Store.Basic

/-!
# Sessions

A session holds one handle at a time, and opens databases in files of a file tree. What a connection
has committed to a file is there for the next one that opens it.
-/

namespace TaggedRows.Store

structure Session where
  handle : Handle
  /-- Where the database of the handle is kept, when it is in a file. -/
  location : Option Location
  files : FileTree
  databases : List (Location × Sql.Database)

namespace Session

/-- A session with an empty database in an empty directory. -/
def start : Session := ⟨.inMemory, none, .empty "work", []⟩

/-- The database at a location. -/
def databaseAt (s : Session) (loc : Location) : Sql.Database := (s.databases.lookup loc).getD []

/-- Keeps what the connection has committed. -/
def keep (s : Session) : Session :=
  match s.location with
  | none => s
  | some loc =>
    { s with
      databases := (loc, s.handle.connection.committed) :: s.databases.filter (·.1 ≠ loc) }

/-- Runs an action on the handle. -/
def run {α : Type} (s : Session) (x : Action Handle α) : Run Session α :=
  let r := x s.handle
  ⟨r.log, { s with handle := r.state }.keep, r.result⟩

/-- Runs an action on the handle and a record. -/
def runOn {α : Type} (s : Session) (record : Record) (x : Action State α) :
    Run (Session × Record) α :=
  let r := x (s.handle, record)
  ⟨r.log, ({ s with handle := r.state.1 }.keep, r.state.2), r.result⟩

/-- A session with an empty database in memory. -/
def openInMemory (s : Session) : Session := { s with handle := .inMemory, location := none }

/-- Opens the database in a file, which is made where it can be. The file without a name, and the
one whose name says so, are in memory. -/
def openFile (s : Session) (path : String) : Except Sql.Fault Session :=
  if path = "" ∨ path = ":memory:" then .ok s.openInMemory
  else
    match s.files.destination path with
    | .error _ => .error (.cannotOpen path)
    | .ok loc =>
      .ok { s with
        handle := .ofConnection (.toDatabase (s.databaseAt loc))
        location := some loc
        files := s.files.put loc (.file (.binary [])) }

/-- Opens a database. -/
def openAt (s : Session) : Option String → Except Sql.Fault Session
  | none => .ok s.openInMemory
  | some path => s.openFile path

/-- Makes a new handle for the connection. The database that takes the place of a poisoned one is
in no file. -/
def reopen (s : Session) : Run Session Unit :=
  let r := Store.reopen s.handle
  let location := if s.handle.isPoisoned then none else s.location
  ⟨r.log, { s with handle := r.state, location }, r.result⟩

end Session

end TaggedRows.Store
