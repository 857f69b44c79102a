import TaggedRows.ColumnTag
import TaggedRows.Failure
import TaggedRows.Source.Ident

/-!
# Row mappings

A row mapping says how one struct type is stored: its table, the key field, the other stored fields
in the order of their declaration, the fields that record changes, and the columns that updates
leave alone. `RowMapping.ofFields` folds the tags of the fields, in order, into a mapping.

All lists of columns keep the same order: the key first where it takes part, then the other columns
as declared.
-/

namespace TaggedRows

/-- A field with the meaning of its tag. -/
structure TaggedField where
  ident : Ident
  tag : ColumnTag
  deriving DecidableEq, Repr

/-- A field and the column that it is stored in. -/
structure MappedField where
  field : Ident
  column : String
  deriving DecidableEq, Repr

structure RowMapping where
  ident : Ident
  /-- The modules around the type, outermost first. -/
  modulePath : List Ident
  table : String
  key : Option MappedField
  /-- The columns besides the key. -/
  columns : List MappedField
  userAudit : Option Ident
  timeAudit : Option Ident
  /-- The columns that updates leave alone, in order and without repeats. -/
  fixedColumns : List String
  deriving DecidableEq, Repr

namespace RowMapping

/-! ## Building -/

/-- Puts a text into an ordered list without repeats. -/
def insertOrdered (s : String) : List String → List String
  | [] => [s]
  | t :: ts => if s < t then s :: t :: ts else if s = t then t :: ts else t :: insertOrdered s ts

/-- What the fields so far say about a mapping. -/
structure Draft where
  stored : Bool
  table : Option String
  key : Option MappedField
  columns : List MappedField
  userAudit : Option Ident
  timeAudit : Option Ident
  fixedColumns : List String

def Draft.empty : Draft := ⟨false, none, none, [], none, none, []⟩

/-- Notes the role of a field in the audit; the last field with a role has it. -/
def Draft.addAudit (draft : Draft) (f : TaggedField) : Draft :=
  match f.tag.audit with
  | .user => { draft with userAudit := some f.ident }
  | .time => { draft with timeAudit := some f.ident }
  | .none => draft

/-- Notes a field stored in the given column. The last table that a stored field names counts. -/
def Draft.addStored (type : Ident) (draft : Draft) (f : TaggedField) (column : String) :
    Except Failure Draft :=
  let draft := { draft with stored := true, table := f.tag.table.or draft.table }
  if f.tag.isKey then
    match draft.key with
    | some first => .error (.duplicateKey type.name first.field.name f.ident.name)
    | none => .ok { draft with key := some ⟨f.ident, column⟩ }
  else
    .ok { draft with
      columns := draft.columns ++ [⟨f.ident, column⟩]
      fixedColumns :=
        if f.tag.updatable then draft.fixedColumns else insertOrdered column draft.fixedColumns }

/-- Notes one more field. -/
def Draft.add (type : Ident) (draft : Draft) (f : TaggedField) : Except Failure Draft :=
  let draft := draft.addAudit f
  match f.tag.column with
  | none => .ok draft
  | some column => draft.addStored type f column

/-- The mapping of a type with the given fields; none when no field is stored. Of two faults the
second key is reported, also before a missing table. -/
def ofFields (type : Ident) (fields : List TaggedField) : Except Failure (Option RowMapping) := do
  let draft ← fields.foldlM (Draft.add type) Draft.empty
  if !draft.stored then return none
  match draft.table with
  | none => .error (.missingTable type.name)
  | some table =>
    return some {
      ident := type
      modulePath := []
      table
      key := draft.key
      columns := draft.columns
      userAudit := draft.userAudit
      timeAudit := draft.timeAudit
      fixedColumns := draft.fixedColumns }

/-! ## Names and columns -/

variable (m : RowMapping)

/-- The same mapping in the given modules. -/
def inModules (path : List Ident) : RowMapping := { m with modulePath := path }

def name : String := m.ident.name

/-- The path of the type without raw prefixes. -/
def qualifiedName : String :=
  "::".intercalate (m.modulePath.map Ident.name ++ [m.name])

/-- The key column, or nothing. -/
def keyColumn : String := (m.key.map MappedField.column).getD ""

/-- The name of the key field, or nothing. -/
def keyName : String := (m.key.map fun key => key.field.name).getD ""

/-- All stored fields, the key first. -/
def selected : List MappedField := m.key.toList ++ m.columns

/-- The columns that an update writes. -/
def updated : List MappedField :=
  m.columns.filter fun entry => !m.fixedColumns.contains entry.column

/-- Column names separated by commas. -/
def joinColumns (entries : List MappedField) : String :=
  ",".intercalate (entries.map MappedField.column)

def selectFields : String := joinColumns m.selected
def insertFields : String := joinColumns m.columns
def updateFields : String := joinColumns m.updated

/-- The names of the stored fields, in the order of `selectFields`. -/
def memberNames : List String := m.selected.map fun entry => entry.field.name

end RowMapping

end TaggedRows
