import TaggedRows.Sql.Expr

/-!
# Statements

Statements as they are written. Names are kept without a meaning; what they stand for depends on the
tables and is found out in `Sql.Plan`.
-/

namespace TaggedRows.Sql

/-- A name in an expression. -/
structure NameUse where
  qualifier : Option String
  name : String
  /-- The name is in double quotes, and stands for a text where it names nothing. -/
  isDouble : Bool
  /-- The name has no quotes at all. -/
  isPlain : Bool
  /-- The text from the name on. -/
  start : List Char
  deriving Repr

/-- An expression as it is written. -/
abbrev NamedExpr := Expr NameUse

/-- What a selection shows. -/
inductive Item where
  /-- All columns. -/
  | all
  /-- An expression with its alias, if it has one, and its spelling. -/
  | one (e : NamedExpr) (shownAs : Option String) (spelling : String)
  deriving Repr

/-- An expression that rows are sorted by. -/
structure SortKey (ν : Type) where
  expr : Expr ν
  isDescending : Bool
  deriving Repr

structure Select where
  items : List Item
  table : Option String
  /-- The alias of the table, or its name. -/
  qualifier : String
  condition : Option NamedExpr
  order : List (SortKey NameUse)
  limit : Option NamedExpr
  offset : Option NamedExpr
  deriving Repr

/-- A column of a new table. -/
structure ColumnDecl where
  name : String
  type : String
  isPrimary : Bool
  isNotNull : Bool
  isUnique : Bool
  /-- The constant where no value is given. -/
  fallback : Term
  deriving Repr

inductive Statement where
  | select (s : Select)
  /-- Inserts rows of values, or one row of default values; the columns are all where none are
  listed. -/
  | insert (replaces : Bool) (table : String) (columns : Option (List String))
      (rows : Option (List (List NamedExpr)))
  | update (table : String) (changes : List (String × NamedExpr)) (condition : Option NamedExpr)
  | delete (table : String) (condition : Option NamedExpr)
  | create (ifAbsent : Bool) (table : String) (start : List Char) (columns : List ColumnDecl)
  | drop (ifPresent : Bool) (table : String)
  | begin
  | commit
  | rollback
  deriving Repr

end TaggedRows.Sql
