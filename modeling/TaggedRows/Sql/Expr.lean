import TaggedRows.Sql.Value

/-!
# Expressions

An expression is built from literals, parameters and names. The type of the names is left open:
names are first what a text says (`Sql.Statement`), and then what they stand for in a table.

Conditions have three outcomes. A comparison with null is null, and `not`, `and` and `or` pass null
on unless the other side decides.
-/

namespace TaggedRows.Sql

inductive Comparison where
  | eq
  | ne
  | lt
  | le
  | gt
  | ge
  deriving DecidableEq, Repr

namespace Comparison

/-- The comparison holds between values in the given order. -/
def holds : Comparison → Ordering → Bool
  | eq, o => o = .eq
  | ne, o => o ≠ .eq
  | lt, o => o = .lt
  | le, o => o ≠ .gt
  | gt, o => o = .gt
  | ge, o => o ≠ .lt

end Comparison

/-- Expressions over names of some type. -/
inductive Expr (ν : Type) where
  /-- A value as it is written. -/
  | literal (v : Value)
  /-- The parameter with the given number, counted from 0. -/
  | parameter (index : Nat)
  | name (n : ν)
  /-- The number of rows. -/
  | rowCount
  | negate (e : Expr ν)
  | compare (op : Comparison) (a b : Expr ν)
  /-- Equality that also holds between nulls. -/
  | same (a b : Expr ν)
  | like (a pattern : Expr ν)
  | between (a low high : Expr ν)
  | not (a : Expr ν)
  | and (a b : Expr ν)
  | or (a b : Expr ν)
  deriving Repr

namespace Expr

variable {ν μ ε : Type}

/-- Replaces every name by an expression, or fails with the first name for which there is none. -/
def resolve (f : ν → Except ε (Expr μ)) : Expr ν → Except ε (Expr μ)
  | literal v => .ok (literal v)
  | parameter i => .ok (parameter i)
  | name n => f n
  | rowCount => .ok rowCount
  | negate a => return negate (← resolve f a)
  | compare op a b => return compare op (← resolve f a) (← resolve f b)
  | same a b => return same (← resolve f a) (← resolve f b)
  | like a p => return like (← resolve f a) (← resolve f p)
  | between a l h => return between (← resolve f a) (← resolve f l) (← resolve f h)
  | not a => return not (← resolve f a)
  | and a b => return and (← resolve f a) (← resolve f b)
  | or a b => return or (← resolve f a) (← resolve f b)

/-- The names in an expression. -/
def names : Expr ν → List ν
  | literal _ | parameter _ | rowCount => []
  | name n => [n]
  | negate a | not a => a.names
  | compare _ a b | same a b | like a b | and a b | or a b => a.names ++ b.names
  | between a l h => a.names ++ l.names ++ h.names

/-- The expression counts rows. -/
def counts : Expr ν → Bool
  | literal _ | parameter _ | name _ => false
  | rowCount => true
  | negate a | not a => a.counts
  | compare _ a b | same a b | like a b | and a b | or a b => a.counts || b.counts
  | between a l h => a.counts || l.counts || h.counts

/-- The conditions that must all hold for the expression to hold. -/
def conjuncts : Expr ν → List (Expr ν)
  | and a b => a.conjuncts ++ b.conjuncts
  | e => [e]

end Expr

/-! ## Patterns -/

/-- A text matches a pattern, in which `%` stands for any text and `_` for any character. Letters
of the basic alphabet match in either case. -/
def matchesPattern : List Char → List Char → Bool
  | [], t => t = []
  | '%' :: p, [] => matchesPattern p []
  | '%' :: p, c :: t => matchesPattern p (c :: t) || matchesPattern ('%' :: p) t
  | _ :: _, [] => false
  | p :: ps, c :: t => (p = '_' || p.toLower = c.toLower) && matchesPattern ps t
termination_by p t => (p.length + t.length)

/-! ## Evaluation -/

/-- A cell of a row: the one in a column, or the number of the row. -/
structure Cell where
  column : Option Nat
  affinity : Affinity
  deriving DecidableEq, Repr

/-- An expression over the cells of a row. -/
abbrev Term := Expr Cell

/-- A row with its number. -/
structure Row where
  id : Int
  cells : List Value
  deriving DecidableEq, Repr

/-- What an expression is evaluated in. -/
structure Frame where
  parameters : List Value
  row : Row
  rowCount : Nat

namespace Term

variable [Engine]

/-- The outcome of a condition as a value. -/
def ofTruth : Option Bool → Value
  | none => .null
  | some b => .ofBool b

/-- The affinity of an expression, if it is a cell. -/
def affinity? : Term → Option Affinity
  | .name cell => some cell.affinity
  | _ => none

/-- How two values compare under an affinity, unless one of them is null. -/
def order? (affinity : Affinity) (a b : Value) : Option Ordering :=
  if a = .null ∨ b = .null then none
  else some (Value.compare (affinity.forComparison a) (affinity.forComparison b))

def compareUnder (op : Comparison) (affinity : Affinity) (a b : Value) : Option Bool :=
  (order? affinity a b).map op.holds

/-- Both hold; a false side decides. -/
def andTruth : Option Bool → Option Bool → Option Bool
  | some false, _ | _, some false => some false
  | some true, b => b
  | a, some true => a
  | none, none => none

/-- One of both holds; a true side decides. -/
def orTruth (a b : Option Bool) : Option Bool :=
  (andTruth (a.map (! ·)) (b.map (! ·))).map (! ·)

def eval (frame : Frame) : Term → Value
  | .literal v => v.rounded
  | .parameter i => frame.parameters.getD i .null
  | .name cell =>
    match cell.column with
    | none => .integer frame.row.id
    | some i => frame.row.cells.getD i .null
  | .rowCount => .integer frame.rowCount
  | .negate a => (eval frame a).negate
  | .compare op a b =>
    ofTruth (compareUnder op (.ofComparison (affinity? a) (affinity? b)) (eval frame a)
      (eval frame b))
  | .same a b =>
    let x := eval frame a
    let y := eval frame b
    if x = .null ∨ y = .null then .ofBool (x = y)
    else ofTruth (compareUnder .eq (.ofComparison (affinity? a) (affinity? b)) x y)
  | .like a p =>
    match (eval frame a).toText?, (eval frame p).toText? with
    | some s, some pattern => .ofBool (matchesPattern pattern.toList s.toList)
    | _, _ => .null
  | .between a l h =>
    let x := eval frame a
    ofTruth (andTruth
      (compareUnder .ge (.ofComparison (affinity? a) (affinity? l)) x (eval frame l))
      (compareUnder .le (.ofComparison (affinity? a) (affinity? h)) x (eval frame h)))
  | .not a => ofTruth ((eval frame a).truth?.map (! ·))
  | .and a b => ofTruth (andTruth (eval frame a).truth? (eval frame b).truth?)
  | .or a b => ofTruth (orTruth (eval frame a).truth? (eval frame b).truth?)

/-- A row satisfies a condition, if there is one. -/
def holds (condition : Option Term) (parameters : List Value) (row : Row) : Bool :=
  match condition with
  | none => true
  | some t => (eval ⟨parameters, row, 0⟩ t).truth? = some true

end Term

end TaggedRows.Sql
