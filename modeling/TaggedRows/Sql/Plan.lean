import TaggedRows.Sql.Grammar.Statements
import TaggedRows.Sql.Table

/-!
# Plans

A plan is a statement in which every name stands for what it means in the tables of a database. A
name means a column; in double quotes it means a text where there is no such column.

A selection visits the rows in the order of their numbers, except where the index of a unique column
serves it better: when that column is restricted and the key is not, and when nothing besides that
column and the key is asked for.
-/

namespace TaggedRows.Sql

structure Selection where
  table : Option String
  /-- What is shown, and the names of the columns of the result. -/
  items : List (Term × String)
  condition : Option Term
  order : List (SortKey Cell)
  limit : Option Term
  offset : Option Term
  /-- The column in whose order the rows are visited. -/
  scan : Option Nat
  deriving Repr

inductive Plan where
  | select (s : Selection)
  /-- Inserts rows with a source for every column that is given one. -/
  | insert (replaces : Bool) (table : String) (rows : List (List (Option Term)))
  | update (table : String) (changes : List (Nat × Term)) (condition : Option Term)
  | delete (table : String) (condition : Option Term)
  | create (table : String) (columns : List ColumnDecl)
  | drop (table : String)
  | nothing
  | begin
  | commit
  | rollback
  deriving Repr

namespace Plan

/-! ## Names -/

/-- What names may mean. -/
structure Scope where
  /-- The whole text of the statement. -/
  text : List Char
  /-- The table, and the name it goes by. -/
  table : Option (Table × String)
  /-- The items that have an alias. -/
  aliases : List (String × Term)

namespace Scope

/-- The names of the number of a row. -/
def rowIdNames : List String := ["rowid", "oid", "_rowid_"]

/-- The cell that a name means in a table. -/
def cellOf? (t : Table) (name : String) : Option Cell :=
  match t.columns.findIdx? (sameName ·.name name) with
  | some i => some ⟨some i, ((t.columns[i]?).map Column.affinity).getD .none⟩
  | none => if name.toLower ∈ rowIdNames then some ⟨none, .integer⟩ else none

/-- The cell that a name means, in the table that it asks for. -/
def cell? (scope : Scope) (n : NameUse) : Option Cell :=
  match scope.table with
  | none => none
  | some (t, name) => if n.qualifier.all (sameName name) then cellOf? t n.name else none

/-- The text that a name in double quotes means, and the truth values. -/
def constant? (n : NameUse) : Option Value :=
  if n.qualifier.isSome then none
  else if n.isDouble then some (.text n.name)
  else if n.isPlain && n.name.toLower = "true" then some (.integer 1)
  else if n.isPlain && n.name.toLower = "false" then some (.integer 0)
  else none

/-- The item that a name is the alias of. -/
def aliased? (scope : Scope) (n : NameUse) : Option Term :=
  if n.qualifier.isSome then none
  else (scope.aliases.find? fun (name, _) => sameName name n.name).map Prod.snd

/-- What a name means. -/
def meaning (scope : Scope) (n : NameUse) : Except Fault Term :=
  match scope.cell? n with
  | some cell => .ok (.name cell)
  | none =>
    match scope.aliased? n with
    | some t => .ok t
    | none =>
      match constant? n with
      | some v => .ok (.literal v)
      | none =>
        let name := (n.qualifier.map (· ++ ".")).getD "" ++ n.name
        .error (.noSuchColumn name (.ofRest scope.text n.start))

def resolve (scope : Scope) (e : NamedExpr) : Except Fault Term := e.resolve scope.meaning

def resolveOption (scope : Scope) : Option NamedExpr → Except Fault (Option Term)
  | none => .ok none
  | some e => (scope.resolve e).map some

end Scope

/-! ## The order of a selection -/

/-- The cell of the column at a place, or the number of the row when it is the key. -/
def isColumn (t : Table) (column : Option Nat) (cell : Cell) : Bool :=
  match column with
  | some i => cell.column = some i
  | none => cell.column = none || cell.column = t.key

/-- The condition compares a column with something that no row changes. -/
def restricts (t : Table) (column : Option Nat) : Term → Bool
  | .compare op (.name cell) e | .compare op e (.name cell) =>
    op ≠ .ne && isColumn t column cell && e.names.isEmpty
  | .same (.name cell) e | .same e (.name cell) => isColumn t column cell && e.names.isEmpty
  | .between (.name cell) l h => isColumn t column cell && l.names.isEmpty && h.names.isEmpty
  | _ => false

/-- All cells are in one column or in the key. -/
def covers (t : Table) (i : Nat) (cells : List Cell) : Bool :=
  cells.all (fun cell => isColumn t (some i) cell || isColumn t none cell) &&
    (if t.key.isSome then 2 else 1) < t.columns.length

/-- The column in whose order the rows are visited. -/
def scanColumn (t : Table) (condition : Option Term) (cells : List Cell) : Option Nat :=
  let conditions := (condition.map Expr.conjuncts).getD []
  if conditions.any (restricts t none) then none
  else
    match t.uniqueColumns.find? fun i => conditions.any (restricts t (some i)) with
    | some i => some i
    | none => t.uniqueColumns.find? fun i => covers t i cells

/-! ## Statements -/

/-- The name of a column of a result. -/
def label (t : Option Table) (e : Term) (spelling : String) : String :=
  match t, e with
  | some t, .name cell => (cell.column.map t.columnName).getD "rowid"
  | _, _ => spelling

/-- The columns that an item shows. -/
def itemTerms (scope : Scope) : Item → Except Fault (List (Term × String × Option String))
  | .all =>
    match scope.table with
    | none => .error .noTables
    | some (t, _) =>
      .ok (t.columns.zipIdx.map fun (column, i) =>
        (.name ⟨some i, column.affinity⟩, column.name, none))
  | .one e shownAs spelling => do
    let term ← scope.resolve e
    return [(term, shownAs.getD (label (scope.table.map Prod.fst) term spelling), shownAs)]

/-- What rows are sorted by. An alias comes before a column, and a literal number means the item
with that number. -/
def sortTerm (scope : Scope) (items : List Term) (key : SortKey NameUse) :
    Except Fault (SortKey Cell) :=
  let term : Except Fault Term := match key.expr with
    | .name n =>
      match scope.aliased? n with
      | some t => .ok t
      | none => scope.meaning n
    | .literal (.integer k) =>
      match if k ≤ 0 then none else items[(k - 1).toNat]? with
      | some t => .ok t
      | none => .ok (.literal (.integer k))
    | e => scope.resolve e
  term.map fun t => ⟨t, key.isDescending⟩

def ofSelect (db : Database) (text : List Char) (s : Select) : Except Fault Plan := do
  let table ← match s.table with
    | none => .ok none
    | some name => (db.table name).map some
  let scope : Scope := ⟨text, table.map fun t => (t, s.qualifier), []⟩
  let unnamed : Scope := ⟨text, none, []⟩
  let limit ← unnamed.resolveOption s.limit
  let offset ← unnamed.resolveOption s.offset
  let items := (← s.items.mapM (itemTerms scope)).flatten
  let aliases := items.filterMap fun (t, _, shownAs) => shownAs.map fun name => (name, t)
  let scope := { scope with aliases }
  let condition ← scope.resolveOption s.condition
  let terms := items.map Prod.fst
  let order ← s.order.mapM (sortTerm scope terms)
  let cells := terms.flatMap Expr.names ++ ((condition.map Expr.names).getD []) ++
    order.flatMap fun key => key.expr.names
  return .select {
    table := s.table
    items := items.map fun (t, name, _) => (t, name)
    condition, order, limit, offset
    scan := table.bind fun t => scanColumn t condition cells }

/-- The place of a column that is written; the number of a row stands for the key. -/
def writtenColumn? (t : Table) (name : String) : Option Nat :=
  (t.columnIndex? name).or (if name.toLower ∈ Scope.rowIdNames then t.key else none)

def ofInsert (db : Database) (text : List Char) (replaces : Bool) (table : String)
    (columns : Option (List String)) (rows : Option (List (List NamedExpr))) :
    Except Fault Plan := do
  let t ← db.table table
  let places ← match columns with
    | none => .ok (List.range t.columns.length)
    | some names =>
      names.mapM fun name =>
        match writtenColumn? t name with
        | some i => .ok i
        | none => .error (.noColumnInTable table name)
  match rows with
  | none => return .insert replaces table [t.columns.map fun _ => none]
  | some rows =>
    let sources ← rows.mapM fun es => do
      let terms ← es.mapM (Scope.resolve ⟨text, none, []⟩)
      if terms.length ≠ places.length then
        if columns.isSome then .error (.valuesForColumns terms.length places.length)
        else .error (.valuesForTable table places.length terms.length)
      return (List.range t.columns.length).map ((places.zip terms).lookup ·)
    return .insert replaces table sources

def ofUpdate (db : Database) (text : List Char) (table : String)
    (changes : List (String × NamedExpr)) (condition : Option NamedExpr) : Except Fault Plan := do
  let t ← db.table table
  let scope : Scope := ⟨text, some (t, table), []⟩
  let changes ← changes.mapM fun (name, e) => do
    let term ← scope.resolve e
    match writtenColumn? t name with
    | some i => return (i, term)
    | none => .error (.noColumnToWrite name)
  return .update table changes (← scope.resolveOption condition)

def ofDelete (db : Database) (text : List Char) (table : String) (condition : Option NamedExpr) :
    Except Fault Plan := do
  let t ← db.table table
  let scope : Scope := ⟨text, some (t, table), []⟩
  return .delete table (← scope.resolveOption condition)

/-- The first column whose name another one has before it. -/
def repeatedColumn? : List ColumnDecl → List String → Option String
  | [], _ => none
  | c :: cs, before => if before.any (sameName c.name) then some c.name
    else repeatedColumn? cs (c.name :: before)

def ofCreate (db : Database) (text : List Char) (ifAbsent : Bool) (table : String)
    (start : List Char) (columns : List ColumnDecl) : Except Fault Plan :=
  if (db.table? table).isSome then
    if ifAbsent then .ok .nothing else .error (.tableExists table (.ofRest text start))
  else
    match repeatedColumn? columns [] with
    | some name => .error (.repeatedColumn name)
    | none => .ok (.create table columns)

/-- The plan of a statement at the beginning of a text. -/
def ofStatement (db : Database) (text : List Char) : Statement → Except Fault Plan
  | .select s => ofSelect db text s
  | .insert replaces table columns rows => ofInsert db text replaces table columns rows
  | .update table changes condition => ofUpdate db text table changes condition
  | .delete table condition => ofDelete db text table condition
  | .create ifAbsent table start columns => ofCreate db text ifAbsent table start columns
  | .drop ifPresent table =>
    if (db.table? table).isSome then .ok (.drop table)
    else if ifPresent then .ok .nothing
    else .error (.noSuchTable table)
  | .begin => .ok .begin
  | .commit => .ok .commit
  | .rollback => .ok .rollback

end Plan

/-- A statement that is ready to run. -/
structure Prepared where
  plan : Plan
  /-- The number of its parameters. -/
  parameters : Nat
  deriving Repr

namespace Prepared

/-- The first statement of a text and the text behind it; none when there is none in it. -/
def first (db : Database) (text : List Char) : Except Fault (Option Prepared × List Char) := do
  match ← Grammar.readStatement text with
  | none => return (none, [])
  | some r => return (some ⟨← Plan.ofStatement db text r.statement, r.parameters⟩, r.rest)

/-- The only statement of a text. The text behind it has to be in order too, and no statement. -/
def only (db : Database) (text : List Char) : Except Fault (Option Prepared) := do
  let (p, rest) ← first db text
  if rest.length < text.length ∧ rest ≠ [] then
    match ← only db rest with
    | none => return p
    | some _ => .error .multipleStatements
  else return p
termination_by text.length

end Prepared

end TaggedRows.Sql
