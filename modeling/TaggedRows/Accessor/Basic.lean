import TaggedRows.RowMapping

/-!
# Accessors

The generated code for a type is one block of accessors. They answer from constants of the mapping
or from the fields of an object, and two of them write fields. An accessor is kept here as what it
does, apart from how it is written down; `RowMapping.accessors` is the block of a mapping.
-/

namespace TaggedRows

/-- How an accessor gets its object. -/
inductive Receiver where
  | none
  | shared
  | exclusive
  deriving DecidableEq, Repr

/-- The types of parameters. -/
inductive ParamType where
  /-- A key, or the id of a user. -/
  | id
  | time
  deriving DecidableEq, Repr

structure Param where
  name : String
  type : ParamType
  deriving DecidableEq, Repr

/-- What an accessor gives back. -/
inductive ResultType where
  | object
  | texts
  | text
  | id
  /-- References to fields, to be bound to a statement. -/
  | values
  /-- References to fields, to be filled from a row. -/
  | slots
  | nothing
  deriving DecidableEq, Repr

/-- Stores a parameter in a field. -/
structure Assignment where
  field : Ident
  param : String
  /-- The parameter is converted to the type of the field. -/
  isConverted : Bool
  deriving DecidableEq, Repr

inductive Body where
  /-- A new object with the default value in every field. -/
  | fresh
  | texts (ts : List String)
  | text (t : String)
  | zero
  | read (field : Ident)
  | values (fields : List Ident)
  | slots (fields : List Ident)
  | assign (assignments : List Assignment)
  deriving DecidableEq, Repr

structure Accessor where
  name : String
  receiver : Receiver
  params : List Param
  result : ResultType
  body : Body
  deriving DecidableEq, Repr

namespace Accessor

/-- A constant text. -/
def constant (name text : String) : Accessor := ⟨name, .shared, [], .text, .text text⟩

/-- A parameter that the body does not use is marked by a low line. -/
def paramName (name : String) (isUsed : Bool) : String := if isUsed then name else "_" ++ name

end Accessor

namespace RowMapping

variable (m : RowMapping)

def keyAccessor : Accessor :=
  ⟨"key", .shared, [], .id, match m.key with
    | some key => .read key.field
    | none => .zero⟩

def setIdAccessor : Accessor :=
  match m.key with
  | some key =>
    ⟨"set_id", .exclusive, [⟨"id", .id⟩], .nothing, .assign [⟨key.field, "id", false⟩]⟩
  | none => ⟨"set_id", .exclusive, [⟨"_id", .id⟩], .nothing, .assign []⟩

/-- The fields that an update binds: the columns that it writes, and then the key. -/
def updateMembers : List Ident :=
  m.updated.map MappedField.field ++ (m.key.map MappedField.field).toList

def modifiedByAccessor : Accessor :=
  let user := Accessor.paramName "user" m.userAudit.isSome
  let time := Accessor.paramName "at" m.timeAudit.isSome
  ⟨"modified_by", .exclusive, [⟨user, .id⟩, ⟨time, .time⟩], .nothing, .assign
    ((m.userAudit.map fun f => ⟨f, user, true⟩).toList ++
      (m.timeAudit.map fun f => ⟨f, time, true⟩).toList)⟩

/-- The accessors of the mapped type, in the order in which they are written. -/
def accessors : List Accessor :=
  [⟨"new_obj", .none, [], .object, .fresh⟩,
    ⟨"names", .shared, [], .texts, .texts m.memberNames⟩,
    .constant "table_name" m.table,
    .constant "key_field" m.keyColumn,
    .constant "key_name" m.keyName,
    .constant "select_fields" m.selectFields,
    .constant "insert_fields" m.insertFields,
    .constant "update_fields" m.updateFields,
    m.keyAccessor,
    m.setIdAccessor,
    ⟨"insert_values", .shared, [], .values, .values (m.columns.map MappedField.field)⟩,
    ⟨"update_values", .shared, [], .values, .values m.updateMembers⟩,
    ⟨"member_pointers", .exclusive, [], .slots, .slots (m.selected.map MappedField.field)⟩,
    m.modifiedByAccessor]

/-- The path of the type. -/
def typePath : List Ident := m.modulePath ++ [m.ident]

end RowMapping

end TaggedRows
