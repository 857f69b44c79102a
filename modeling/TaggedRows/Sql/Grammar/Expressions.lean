import TaggedRows.Sql.Grammar.Basic

/-!
# Reading expressions

Operators have levels, and those of higher levels bind more closely. The operators of one level
group to the left.
-/

namespace TaggedRows.Sql.Grammar

/-- What may stand behind an operand. -/
inductive Operator where
  | or
  | and
  | compare (op : Comparison)
  | is (isNegated : Bool)
  | isNull (isNegated : Bool)
  | like (isNegated : Bool)
  | between (isNegated : Bool)
  deriving DecidableEq, Repr

namespace Operator

/-- Operators of higher levels bind more closely. -/
def level : Operator → Nat
  | or => 1
  | and => 2
  | compare .eq | compare .ne | is _ | isNull _ | like _ | between _ => 4
  | compare _ => 5

end Operator

/-- The level of what `not` applies to. -/
def notLevel : Nat := 3

/-- The comparison that a sign means. -/
def comparisonOf? : Token → Option Comparison
  | .sign "=" | .sign "==" => some .eq
  | .sign "<>" | .sign "!=" => some .ne
  | .sign "<" => some .lt
  | .sign "<=" => some .le
  | .sign ">" => some .gt
  | .sign ">=" => some .ge
  | _ => none

/-- The next operator and the number of its tokens. A `not` that belongs to no operator refuses the
token behind it. -/
def peekOperator : Reader (Option (Operator × Nat)) := do
  let tokens := (← get).lexemes.map Lexeme.token
  let second (keyword : String) := tokens[1]?.any (isKeyword keyword)
  match tokens.head? with
  | none => return none
  | some t =>
    match comparisonOf? t with
    | some op => return some (.compare op, 1)
    | none =>
      if isKeyword "or" t then return some (.or, 1)
      else if isKeyword "and" t then return some (.and, 1)
      else if isKeyword "is" t then
        if second "not" then return some (.is true, 2) else return some (.is false, 1)
      else if isKeyword "isnull" t then return some (.isNull false, 1)
      else if isKeyword "notnull" t then return some (.isNull true, 1)
      else if isKeyword "like" t then return some (.like false, 1)
      else if isKeyword "between" t then return some (.between false, 1)
      else if isKeyword "not" t then
        if second "like" then return some (.like true, 2)
        else if second "between" then return some (.between true, 2)
        else if second "null" then return some (.isNull true, 2)
        else do advance; refuse
      else return none

def negateIf (b : Bool) (e : NamedExpr) : NamedExpr := if b then .not e else e

/-- A name, with the table that it belongs to where that is given. -/
def nameUse : Reader NamedExpr := do
  let start ← here
  let token ← peek
  let first ← named nameOf?
  if ← skipSign "." then return .name ⟨some first, ← entity, false, false, start⟩
  else
    let isDouble := token.any fun t => match t with
      | .quoted _ isDouble => isDouble
      | _ => false
    let isPlain := token.any fun t => match t with
      | .word _ => true
      | _ => false
    return .name ⟨none, first, isDouble, isPlain, start⟩

/-- The next tokens count rows. -/
def countsRows (lexemes : List Lexeme) : Bool :=
  match (lexemes.take 4).map Lexeme.token with
  | [.word w, .sign "(", .sign "*", .sign ")"] => w.toLower = "count"
  | _ => false

mutual
/-- Reads an operand. -/
def operand : Nat → Reader NamedExpr
  | 0 => refuse
  | fuel + 1 => do
    match ← peek with
    | some (.integer n) => advance; return .literal (.ofInt n)
    | some (.real d) => advance; return .literal (.real d)
    | some (.text s) => advance; return .literal (.text s)
    | some (.blob bytes) => advance; return .literal (.blob bytes)
    | some .parameter =>
      let input ← get
      set (⟨input.lexemes.drop 1, input.parameters + 1⟩ : Input)
      return .parameter input.parameters
    | some (.sign "(") => do
      advance
      let e ← expression fuel 1
      sign ")"
      return e
    | some (.sign "-") => do
      advance
      match ← peek with
      | some (.integer n) => advance; return .literal (.ofInt (-(n : Int)))
      | _ => return .negate (← operand fuel)
    | some (.sign "+") => advance; operand fuel
    | some (.word w) =>
      if w.toLower = "null" then advance; return .literal .null
      else if w.toLower = "not" then advance; return .not (← expression fuel notLevel)
      else if countsRows (← get).lexemes then
        modify fun input => { input with lexemes := input.lexemes.drop 4 }
        return .rowCount
      else nameUse
    | _ => nameUse
/-- Reads an expression of operators from a level on. -/
def expression : Nat → Nat → Reader NamedExpr
  | 0, _ => refuse
  | fuel + 1, level => do operators fuel level (← operand fuel)
/-- Reads the operators behind an operand. -/
def operators : Nat → Nat → NamedExpr → Reader NamedExpr
  | 0, _, _ => refuse
  | fuel + 1, level, left => do
    match ← peekOperator with
    | none => return left
    | some (op, n) =>
      if op.level < level then return left
      else
        modify fun input => { input with lexemes := input.lexemes.drop n }
        match op with
        | .or => operators fuel level (.or left (← expression fuel (op.level + 1)))
        | .and => operators fuel level (.and left (← expression fuel (op.level + 1)))
        | .compare c => operators fuel level (.compare c left (← expression fuel (op.level + 1)))
        | .is b =>
          operators fuel level (negateIf b (.same left (← expression fuel (op.level + 1))))
        | .isNull b => operators fuel level (negateIf b (.same left (.literal .null)))
        | .like b =>
          operators fuel level (negateIf b (.like left (← expression fuel (op.level + 1))))
        | .between b => do
          let low ← expression fuel (op.level + 1)
          keyword "and"
          let high ← expression fuel (op.level + 1)
          operators fuel level (negateIf b (.between left low high))
end

/-- Reads an expression. -/
def expr : Reader NamedExpr := do
  let n := (← get).lexemes.length
  expression (3 * n + 3) 1

/-- Reads an expression behind a keyword, if the keyword is there. -/
def optionalExpr (keyword : String) : Reader (Option NamedExpr) := do
  if ← skipKeyword keyword then return some (← expr) else return none

end TaggedRows.Sql.Grammar
