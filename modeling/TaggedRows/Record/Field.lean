import TaggedRows.Sql.Argument
import TaggedRows.Timestamp

/-!
# Fields

A field has a kind, which says what values it takes, what is handed to the database for a value, and
how a database value is read into it. A type that brings its own conversions is a kind as well.

Reading what was written for a value gives the value back where the database has kept it as it was.
For the kinds that are spelled out here that is proved, and of a type with its own conversions it is
asked where it is needed.
-/

namespace TaggedRows

inductive FieldValue where
  | integer (n : Int)
  | flag (b : Bool)
  | text (s : String)
  | time (t : Timestamp)
  | bytes (bs : List UInt8)
  | absent
  deriving DecidableEq, Repr

namespace FieldValue

/-- The database value that is written for a value. -/
def toSql : FieldValue → Sql.Value
  | integer n => .integer n
  | flag b => .ofBool b
  | text s => .text s
  | time t => .text t.columnText
  | bytes bs => .blob bs
  | absent => .null

end FieldValue

/-- The conversions that a type brings. Its values are represented by other field values. -/
structure Conversion where
  isValue : FieldValue → Bool
  fresh : FieldValue
  argument : FieldValue → Sql.Argument
  ofSql : Sql.Value → Except Sql.Misfit FieldValue

inductive FieldKind where
  /-- Integers from the first number to the second. -/
  | integer (low high : Int)
  | flag
  | text
  | time
  | bytes
  /-- A type with its own conversions. -/
  | own (conversion : Conversion)
  /-- The field may also be absent. -/
  | optional (kind : FieldKind)

namespace FieldKind

/-- The kind of keys. -/
def key : FieldKind := integer Sql.minInteger Sql.maxInteger

/-- The value of a new field. -/
def fresh : FieldKind → FieldValue
  | integer _ _ => .integer 0
  | flag => .flag false
  | text => .text ""
  | time => .time .epoch
  | bytes => .bytes []
  | own conversion => conversion.fresh
  | optional _ => .absent

/-- What is handed to the database for a value. -/
def argument : FieldKind → FieldValue → Sql.Argument
  | own conversion, v => conversion.argument v
  | optional _, .absent => .value .null
  | optional kind, v => argument kind v
  | _, v => .value v.toSql

/-- Reads a database value into a field of the kind. -/
def ofSql : FieldKind → Sql.Value → Except Sql.Misfit FieldValue
  | integer low high, .integer n =>
    if low ≤ n ∧ n ≤ high then .ok (.integer n) else .error (.range n)
  | flag, .integer n => .ok (.flag (n ≠ 0))
  | text, .text s => .ok (.text s)
  | time, .text s =>
    match Timestamp.ofColumn s with
    | .ok t => .ok (.time t)
    | .error e => .error (.time e)
  | bytes, .blob bs => .ok (.bytes bs)
  | own conversion, v => conversion.ofSql v
  | optional _, .null => .ok .absent
  | optional kind, v => ofSql kind v
  | _, v => .error (.kind v.kindName)

end FieldKind

end TaggedRows
