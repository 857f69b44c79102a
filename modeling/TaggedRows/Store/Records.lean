import TaggedRows.Store.Basic

/-!
# Records in the store

The operations on records of a mapped type. A record whose key is 0 is not stored yet: `replace`
inserts it as a new one, and `findSelf` refuses it.

What a type cannot do is refused before anything is noted or sent to the database: operations by key
on a type without a key. A record without columns to update is not sent either.
-/

namespace TaggedRows.Store

open TaggedRows.Store.Action

variable [Sql.Engine] (t : RecordType)

/-! ## Writing -/

/-- Inserts the record, and stores the key that the database gives it. -/
def add : Action State Unit := do
  let r ← theRecord
  let changed ← onFirst (execute (Query.insert t.mapping.access) (t.insertValues r))
  setRecord (t.withKey r changed.lastId)

/-- Inserts the record in the place of the one with its key. -/
def replace : Action State Unit := do
  let r ← theRecord
  let a := t.mapping.access
  let changed ←
    if a.keyField = "" ∨ t.keyOf r = 0 then
      onFirst (execute (Query.replace a.table a.insertFields) (t.insertValues r))
    else
      onFirst (execute (Query.replace a.table a.selectFields)
        (.value (.integer (t.keyOf r)) :: t.insertValues r))
  setRecord (t.withKey r changed.lastId)

/-- Writes the columns that updates write to the row with the key of the record. -/
def save : Action State Unit := do
  let r ← theRecord
  let a := t.mapping.access
  if a.keyField = "" then fail (.noKey a.table)
  else if a.updateFields = "" then note (.saveSkipped a.table)
  else
    let _ ← onFirst (execute (Query.update a) (t.updateValues r))

/-- Notes the user and the time of a change in the record, and saves it. -/
def saveAs (user : Int) (time : Timestamp) : Action State Unit := do
  let r ← theRecord
  setRecord (t.withAudit r user time)
  save t

/-- Deletes the row with a key. -/
def deleteById (id : Int) : Action Handle Unit := do
  let a := t.mapping.access
  if a.keyField = "" then fail (.noKey a.table)
  else
    let changed ← execute (Query.delete a) [.value (.integer id)]
    if changed.rows = 0 then fail (.notDeleted id)

/-- Deletes the row with the key of the record. -/
def delete : Action State Unit := do
  let r ← theRecord
  onFirst (deleteById t (t.keyOf r))

/-! ## Reading -/

/-- Reads the first row of a query into the record; false when there is none. -/
def load (query : String) (arguments : List Sql.Argument) : Action State Bool := do
  onFirst (note (.loading query arguments.length))
  let result ← onFirst (locked fun c => c.query query arguments)
  match result.rows with
  | [] => return false
  | cells :: _ =>
    fun (h, r) =>
      match t.scan result.labels cells r with
      | (r, .ok ()) => ⟨[], (h, r), .ok true⟩
      | (r, .error e) => ⟨[], (h, r), .error (.database e)⟩

/-- Reads a row into a fresh record. -/
def loadFresh (query : String) (arguments : List Sql.Argument) : Action Handle (Option Record) :=
  fun h =>
    match load t query arguments (h, t.fresh) with
    | ⟨log, (h, _), .error e⟩ => ⟨log, h, .error e⟩
    | ⟨log, (h, r), .ok found⟩ => ⟨log, h, .ok (if found then some r else none)⟩

/-- The first record whose columns equal the given arguments. -/
def find (conditions : List (String × Sql.Argument)) : Action Handle (Option Record) :=
  loadFresh t
    (Query.select t.mapping.access (Query.conditionClause (conditions.map Prod.fst)))
    (conditions.map Prod.snd)

/-- The first record whose column equals an argument. -/
def findBy (column : String) (argument : Sql.Argument) : Action Handle (Option Record) :=
  find t [(column, argument)]

/-- The record with a key. -/
def findById (id : Int) : Action Handle (Option Record) := do
  let a := t.mapping.access
  if a.keyField = "" then fail (.noKey a.table)
  else loadFresh t (Query.selectByKey a) [.value (.integer id)]

/-- Reads the record again from the row with its key. -/
def findSelf : Action State Bool := do
  let r ← theRecord
  let a := t.mapping.access
  if a.keyField = "" then fail (.noKey a.table)
  else if t.keyOf r = 0 then fail (.keyMissing a.table)
  else load t (Query.selectByKey a) [.value (.integer (t.keyOf r))]

/-- The records that a clause selects. -/
def listQuery (clause : String) (arguments : List Sql.Argument) : Action Handle (List Record) := do
  let query := Query.select t.mapping.access clause
  note (.listing query arguments.length)
  locked fun c =>
    match c.query query arguments with
    | (c, .error e) => (c, .error e)
    | (c, .ok result) => (c, t.ofRows result.labels result.rows)

/-- All records of the table. -/
def list : Action Handle (List Record) := listQuery t "" []

end TaggedRows.Store
