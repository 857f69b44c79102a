import TaggedRows.Accessor.Basic
import TaggedRows.Record.Basic

/-!
# What accessors do

The meaning of the body of an accessor: what it gives back, and the record after it. Only a body of
assignments changes the record.
-/

namespace TaggedRows

namespace Accessor

/-- What an accessor gives back. -/
inductive Answer where
  | record (r : Record)
  | texts (ts : List String)
  | text (t : String)
  | id (n : Int)
  | values (vs : List FieldValue)
  | slots (fields : List Ident)
  | nothing
  deriving DecidableEq, Repr

/-- The arguments of a call, by the names of the parameters. -/
abbrev Arguments := List (String × FieldValue)

/-- Stores arguments in fields, one after another. -/
def assign (arguments : Arguments) : Record → List Assignment → Record
  | r, [] => r
  | r, a :: rest =>
    assign arguments (r.set a.field ((arguments.lookup a.param).getD .absent)) rest

/-- What a body gives back when it runs on a record of a type, and the record after it. -/
def runBody (t : RecordType) (arguments : Arguments) (r : Record) : Body → Answer × Record
  | .fresh => (.record t.fresh, r)
  | .texts ts => (.texts ts, r)
  | .text s => (.text s, r)
  | .zero => (.id 0, r)
  | .read field =>
    match r.get field with
    | .integer n => (.id n, r)
    | _ => (.id 0, r)
  | .values fields => (.values (fields.map r.get), r)
  | .slots fields => (.slots fields, r)
  | .assign assignments => (.nothing, assign arguments r assignments)

/-- Calls an accessor. -/
def call (a : Accessor) (t : RecordType) (arguments : List FieldValue) (r : Record) :
    Answer × Record :=
  runBody t ((a.params.map Param.name).zip arguments) r a.body

end Accessor

namespace RecordType

/-- Calls the accessor with a name; none when there is none of that name. -/
def call? (t : RecordType) (name : String) (arguments : List FieldValue) (r : Record) :
    Option (Accessor.Answer × Record) :=
  (t.mapping.accessors.find? (·.name = name)).map fun a => a.call t arguments r

end RecordType

end TaggedRows
