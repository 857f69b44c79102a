import TaggedRows.Record.Field
import TaggedRows.RowMapping

/-!
# Records

A record is an object of a mapped type: a value for every field, in the order of their declaration,
stored or not. A `RecordType` has the kinds of the fields and the mapping that their tags make.

What is bound for a record stands in the order in which the mapping lists the columns, and the cells
of a row are read in the order of `RowMapping.selected`, up to the first one that does not fit.
-/

namespace TaggedRows

/-- The values of all fields. -/
abbrev Record := List (Ident × FieldValue)

namespace Record

/-- The value of a field; what is no field has none. -/
def get (r : Record) (field : Ident) : FieldValue := (r.lookup field).getD .absent

/-- The record with another value in a field. -/
def set (r : Record) (field : Ident) (v : FieldValue) : Record :=
  r.map fun (f, old) => (f, if f = field then v else old)

end Record

/-- A mapped type. -/
structure RecordType where
  fields : List (Ident × FieldKind)
  mapping : RowMapping

namespace RecordType

/-- The type with the given fields, each with its kind and its tag; none when the tags make no
mapping. -/
def ofTags? (name : String) (modules : List String) (fields : List (String × FieldKind × String)) :
    Option RecordType :=
  let tagged := fields.map fun (field, _, tag) => (⟨.ofText field, .ofTag tag⟩ : TaggedField)
  match RowMapping.ofFields (.ofText name) tagged with
  | .ok (some m) =>
    some ⟨fields.map fun (field, kind, _) => (.ofText field, kind),
      m.inModules (modules.map Ident.ofText)⟩
  | _ => none

variable (t : RecordType)

/-- A record with fresh values. -/
def fresh : Record := t.fields.map fun (field, kind) => (field, kind.fresh)

/-- The kind of a field. -/
def kindOf (field : Ident) : FieldKind := (t.fields.lookup field).getD .key

def hasKey : Bool := t.mapping.key.isSome

/-- The key of a record; 0 for a type without one. -/
def keyOf (r : Record) : Int :=
  match t.mapping.key with
  | some key =>
    match r.get key.field with
    | .integer n => n
    | _ => 0
  | none => 0

/-- The record with another key. -/
def withKey (r : Record) (id : Int) : Record :=
  match t.mapping.key with
  | some key => r.set key.field (.integer id)
  | none => r

/-- The record with the user and the time of a change, where it has fields for them. -/
def withAudit (r : Record) (user : Int) (time : Timestamp) : Record :=
  let r := (t.mapping.userAudit.map fun f => r.set f (.integer user)).getD r
  (t.mapping.timeAudit.map fun f => r.set f (.time time)).getD r

/-! ## Arguments of statements -/

/-- The argument for a field. -/
def argument (r : Record) (f : MappedField) : Sql.Argument :=
  (t.kindOf f.field).argument (r.get f.field)

/-- The arguments of an insertion. -/
def insertValues (r : Record) : List Sql.Argument := t.mapping.columns.map (t.argument r)

/-- The arguments of an update: those for the columns that it writes, and then the key. -/
def updateValues (r : Record) : List Sql.Argument :=
  t.mapping.updated.map (t.argument r) ++ t.mapping.key.toList.map (t.argument r)

/-! ## Rows -/

/-- Reads cells into fields, from the cell with the given number on. The fields before the first
misfit have their new values. -/
def scanFields (labels : List String) (cells : List Sql.Value) (r : Record) (i : Nat) :
    List MappedField → Record × Except Sql.Fault Unit
  | [] => (r, .ok ())
  | f :: fs =>
    match cells[i]? with
    | none => (r, .error (.columnIndex i))
    | some v =>
      match (t.kindOf f.field).ofSql v with
      | .error e => (r, .error (.misfit i (labels.getD i "") e))
      | .ok v => scanFields labels cells (r.set f.field v) (i + 1) fs

/-- Reads the cells of a row into a record. -/
def scan (labels : List String) (cells : List Sql.Value) (r : Record) :
    Record × Except Sql.Fault Unit :=
  t.scanFields labels cells r 0 t.mapping.selected

/-- The records of the rows of a result, unless one does not fit. -/
def ofRows (labels : List String) : List (List Sql.Value) → Except Sql.Fault (List Record)
  | [] => .ok []
  | cells :: rest =>
    match t.scan labels cells t.fresh with
    | (_, .error e) => .error e
    | (r, .ok ()) => (ofRows labels rest).map (r :: ·)

end RecordType

end TaggedRows
