import TaggedRows.Tag.Pair

/-!
# What a tag says about its field

A field is stored in a column when its tag has a non-empty `sql` value. The tag may also make the
field the key, name the table of the whole type, give the field a role in the audit and keep its
column out of updates. Every other name in a tag is ignored.
-/

namespace TaggedRows

/-- The part a field plays when a change is recorded. -/
inductive AuditRole where
  | none
  /-- Receives the id of the user who made the change. -/
  | user
  /-- Receives the time of the change. -/
  | time
  deriving DecidableEq, Repr

/-- The meaning of one field's tag. -/
structure ColumnTag where
  /-- The column; a field without one is not stored. -/
  column : Option String
  isKey : Bool
  /-- The table of the whole type. -/
  table : Option String
  audit : AuditRole
  /-- False only when `update` is an explicit, well-formed false. -/
  updatable : Bool
  deriving DecidableEq, Repr

/-- The spellings of a boolean that `update` accepts. -/
def parseBool (text : String) : Option Bool :=
  if text ∈ ["1", "t", "T", "TRUE", "true", "True"] then some true
  else if text ∈ ["0", "f", "F", "FALSE", "false", "False"] then some false
  else none

/-- An empty value counts as none. -/
def nonEmpty (value : Option String) : Option String :=
  value.filter (· ≠ "")

namespace AuditRole

/-- The role that a value of `audit` names. -/
def ofValue : Option String → AuditRole
  | some "user" => .user
  | some "time" => .time
  | _ => .none

end AuditRole

namespace ColumnTag

/-- Reads a tag. A malformed tag only shows fewer names. -/
def ofTag (tag : String) : ColumnTag where
  column := nonEmpty (Tag.lookup tag "sql")
  isKey := (nonEmpty (Tag.lookup tag "key")).isSome
  table := nonEmpty (Tag.lookup tag "table")
  audit := .ofValue (Tag.lookup tag "audit")
  updatable := (Tag.lookup tag "update").bind parseBool ≠ some false

/-- The field is stored in a column. -/
def isStored (tag : ColumnTag) : Bool :=
  tag.column.isSome

end ColumnTag

end TaggedRows
