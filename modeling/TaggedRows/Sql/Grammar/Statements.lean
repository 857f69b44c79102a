import TaggedRows.Sql.Fault
import TaggedRows.Sql.Grammar.Expressions

/-!
# Reading statements

`readStatement` reads the first statement of a text, up to a semicolon or the end.
-/

namespace TaggedRows.Sql.Grammar

/-- Reads an alias if there is one. -/
def optionalAlias : Reader (Option String) := do
  if ← skipKeyword "as" then return some (← entity) else optionalName entityOf?

def item : Reader Item := do
  if ← skipSign "*" then return .all
  else
    let start ← here
    let e ← expr
    let stop ← here
    let spelling := (Lexeme.between start stop).trimAscii.toString
    return .one e (← optionalAlias) spelling

def sortKey : Reader (SortKey NameUse) := do
  let e ← expr
  if ← skipKeyword "desc" then return ⟨e, true⟩
  else
    let _ ← skipKeyword "asc"
    return ⟨e, false⟩

/-- Reads how many rows are shown, and how many are left out before them. -/
def limits : Reader (Option NamedExpr × Option NamedExpr) := do
  if ← skipKeyword "limit" then
    let first ← expr
    if ← skipSign "," then return (some (← expr), some first)
    else return (some first, ← optionalExpr "offset")
  else return (none, none)

def select : Reader Statement := do
  let items ← commaList item
  let (table, qualifier) ← if ← skipKeyword "from" then do
      let table ← entity
      pure (some table, (← optionalAlias).getD table)
    else pure (none, "")
  let condition ← optionalExpr "where"
  let order ← if ← skipKeyword "order" then do keyword "by"; commaList sortKey else pure []
  let (limit, offset) ← limits
  return .select { items, table, qualifier, condition, order, limit, offset }

/-- Reads values in parentheses. -/
def valueRow : Reader (List NamedExpr) := do
  sign "("
  let es ← commaList expr
  sign ")"
  return es

def insert (replaces : Bool) : Reader Statement := do
  keyword "into"
  let table ← entity
  let columns ← if ← skipSign "(" then do
      let names ← commaList entity
      sign ")"
      pure (some names)
    else pure none
  if ← skipKeyword "default" then do
    keyword "values"
    return .insert replaces table columns none
  else do
    keyword "values"
    return .insert replaces table columns (some (← commaList valueRow))

/-- Reads what a column is set to. -/
def change : Reader (String × NamedExpr) := do
  let column ← entity
  sign "="
  return (column, ← expr)

def update : Reader Statement := do
  let table ← entity
  keyword "set"
  let changes ← commaList change
  return .update table changes (← optionalExpr "where")

def delete : Reader Statement := do
  keyword "from"
  let table ← entity
  return .delete table (← optionalExpr "where")

/-- Reads the words of a type. -/
def typeWords : Nat → Reader (List String)
  | 0 => return []
  | n + 1 => do
    match ← optionalName entityOf? with
    | some w => return w :: (← typeWords n)
    | none => return []

/-- Goes behind the sizes of a type, if there are any. -/
def skipTypeSizes : Reader Unit := do
  if ← skipSign "(" then
    let _ ← commaList expr
    sign ")"

/-- Reads a constant; a name is its text. -/
def fallback : Reader Term := do
  let n := (← get).lexemes.length
  let e ← operand (3 * n + 3)
  match e.resolve fun n => (.ok (.literal (.text n.name)) : Except Unit Term) with
  | .ok t => return t
  | .error _ => refuse

/-- Reads the constraints of a column. -/
def constraints : Nat → ColumnDecl → Reader ColumnDecl
  | 0, c => return c
  | n + 1, c => do
    if ← skipKeyword "primary" then
      keyword "key"
      let isDescending ← skipKeyword "desc"
      let _ ← skipKeyword "asc"
      if !isDescending && c.type.toLower = "integer" then constraints n { c with isPrimary := true }
      else constraints n { c with isUnique := true }
    else if ← skipKeyword "not" then
      keyword "null"
      constraints n { c with isNotNull := true }
    else if ← skipKeyword "null" then constraints n c
    else if ← skipKeyword "unique" then constraints n { c with isUnique := true }
    else if ← skipKeyword "default" then constraints n { c with fallback := ← fallback }
    else return c

def columnDecl : Reader ColumnDecl := do
  let name ← entity
  let n := (← get).lexemes.length
  let type := " ".intercalate (← typeWords n)
  if type ≠ "" then skipTypeSizes
  constraints n ⟨name, type, false, false, false, .literal .null⟩

def create : Reader Statement := do
  keyword "table"
  let ifAbsent ← skipKeyword "if"
  if ifAbsent then do keyword "not"; keyword "exists"
  let start ← here
  let table ← entity
  sign "("
  let columns ← commaList columnDecl
  sign ")"
  return .create ifAbsent table start columns

def drop : Reader Statement := do
  keyword "table"
  let ifPresent ← skipKeyword "if"
  if ifPresent then keyword "exists"
  return .drop ifPresent (← entity)

/-- Reads a statement, which its first keyword tells. -/
def statement : Reader Statement := do
  if ← skipKeyword "select" then select
  else if ← skipKeyword "insert" then insert false
  else if ← skipKeyword "replace" then insert true
  else if ← skipKeyword "update" then update
  else if ← skipKeyword "delete" then delete
  else if ← skipKeyword "create" then create
  else if ← skipKeyword "drop" then drop
  else if ← skipKeyword "begin" then
    let _ ← skipIf fun t =>
      isKeyword "deferred" t || isKeyword "immediate" t || isKeyword "exclusive" t
    let _ ← skipKeyword "transaction"
    return .begin
  else if ← skipIf fun t => isKeyword "commit" t || isKeyword "end" t then
    let _ ← skipKeyword "transaction"
    return .commit
  else if ← skipKeyword "rollback" then
    let _ ← skipKeyword "transaction"
    return .rollback
  else refuse

/-- Reads a statement up to its end. -/
def body : Reader Statement := do
  let s ← statement
  match ← peek with
  | none => return s
  | some t => if t = .sign ";" then return s else refuse

/-- The fault of a text that is refused at a token or at its end. -/
def faultAt (text : List Char) : Option Lexeme → Fault
  | none => .incomplete
  | some l =>
    let place := Place.ofRest text l.start
    if l.token = .illegal then .unrecognized l.written place else .unexpected l.written place

/-- A statement that has been read from the beginning of a text. -/
structure Reading where
  statement : Statement
  /-- The number of its parameters. -/
  parameters : Nat
  /-- The text behind the statement. -/
  rest : List Char

/-- The first statement of a text; none when there is none in it. -/
def readStatement (text : List Char) : Except Fault (Option Reading) :=
  match (Token.lexemes text).dropWhile (·.token = .sign ";") with
  | [] => .ok none
  | ls =>
    match body.run ⟨ls, 0⟩ with
    | .error l => .error (faultAt text l)
    | .ok (s, input) =>
      .ok (some ⟨s, input.parameters, (input.lexemes.head?.map Lexeme.stop).getD []⟩)

end TaggedRows.Sql.Grammar
