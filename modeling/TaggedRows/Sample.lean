import TaggedRows.Record.Basic
import TaggedRows.Sql.Double

/-!
# Sample types

Mapped types with their tables. `user`, `event` and `invoice` make a small application. The other
three are there for what they lack: `seq` has no column besides its key, `frozen` has none that an
update writes, and `odd` has a field of every kind, under names that need quotes.
-/

namespace TaggedRows.Sample

/-- Signed integers of 32 bits. -/
def int32 : FieldKind := .integer (-2147483648) 2147483647

/-- Bytes as numbers. -/
def byte : FieldKind := .integer 0 255

def user : Option RecordType :=
  RecordType.ofTags? "User" []
    [("id", .key, "sql:\"id\" key:\"true\" table:\"users\""),
      ("username", .text, "sql:\"username\""),
      ("email", .optional .text, "sql:\"email\""),
      ("role", int32, "sql:\"role\""),
      ("editor", .optional .key, "sql:\"userid\" audit:\"user\""),
      ("modified", .optional .time, "sql:\"modified\" audit:\"time\""),
      ("created", .time, "sql:\"created\" update:\"false\""),
      ("session", .optional .text, "")]

def event : Option RecordType :=
  RecordType.ofTags? "Event" []
    [("message", .text, "sql:\"message\" table:\"events\""),
      ("at", .time, "sql:\"at\"")]

def invoice : Option RecordType :=
  RecordType.ofTags? "Invoice" ["billing"]
    [("id", .key, "sql:\"id\" key:\"true\" table:\"invoices\""),
      ("number", .text, "sql:\"number\""),
      ("cents", .key, "sql:\"cents\"")]

def seq : Option RecordType :=
  RecordType.ofTags? "Seq" [] [("id", .key, "sql:\"id\" key:\"true\" table:\"seqs\"")]

def frozen : Option RecordType :=
  RecordType.ofTags? "Frozen" []
    [("name", .text, "sql:\"name\" update:\"false\""),
      ("id", .key, "sql:\"id\" key:\"yes\" table:\"frozen\""),
      ("stamp", .optional .time, "sql:\"stamp\" update:\"0\" audit:\"time\"")]

def odd : Option RecordType :=
  RecordType.ofTags? "Odd" []
    [("r#type", .text, "sql:\"kind\" table:\"ignored\""),
      ("order", .optional int32, "sql:\"\\\"order\\\"\""),
      ("ident", .key, "sql:\"pk\" key:\"1\" table:\"odds\" update:\"false\""),
      ("flag", .flag, "sql:\"flag\""),
      ("small", byte, "sql:\"small\" update:\"maybe\""),
      ("data", .bytes, "sql:\"data\" update:\"F\""),
      ("editor", .key, "audit:\"user\""),
      ("note", .text, "")]

/-- All sample types. -/
def types : List RecordType := [user, event, invoice, seq, frozen, odd].filterMap id

/-- The type with a name. -/
def type? (name : String) : Option RecordType := types.find? (·.mapping.name = name)

/-- Makes the tables of all sample types. -/
def schema : String :=
  "create table if not exists users (
    id integer primary key,
    username text not null unique,
    email text,
    role integer not null default 0,
    userid integer,
    modified text,
    created text not null
  );
  create table if not exists events (message text not null, at text not null);
  create table if not exists invoices (
    id integer primary key,
    number text not null,
    cents integer not null
  );
  create table if not exists seqs (id integer primary key);
  create table if not exists frozen (id integer primary key, name text not null, stamp text);
  create table if not exists odds (
    pk integer primary key,
    kind text not null unique,
    \"order\" integer,
    flag integer not null,
    small integer not null,
    data blob
  );"

end TaggedRows.Sample
