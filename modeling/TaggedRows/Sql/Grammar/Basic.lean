import TaggedRows.Sql.Statement
import TaggedRows.Sql.Token

/-!
# Reading tokens

Statements are read from left to right, and what has been read is never read again in another way.
So the token that a reader fails with is the first one that no statement has there.
-/

namespace TaggedRows.Sql.Grammar

/-- What is left to read, and how many parameters have been read. -/
structure Input where
  lexemes : List Lexeme
  parameters : Nat

/-- A reader fails with the token that it cannot take, or at the end of the text. -/
abbrev Reader := StateT Input (Except (Option Lexeme))

/-- The words that cannot be names. -/
def reservedWords : List String :=
  ["add", "all", "alter", "and", "as", "autoincrement", "between", "case", "check", "collate",
    "commit", "constraint", "create", "default", "deferrable", "delete", "distinct", "drop", "else",
    "escape", "except", "exists", "foreign", "from", "group", "having", "in", "index", "insert",
    "intersect", "into", "is", "isnull", "join", "limit", "not", "nothing", "notnull", "null", "on",
    "or", "order", "primary", "references", "returning", "select", "set", "table", "then", "to",
    "transaction", "union", "unique", "update", "using", "values", "when", "where"]

def isReserved (word : String) : Bool := word.toLower ∈ reservedWords

def refuse {α : Type} : Reader α := fun input => .error input.lexemes.head?

/-- The next token. -/
def peek : Reader (Option Token) := return (← get).lexemes.head?.map Lexeme.token

/-- The text from the next token on. -/
def here : Reader (List Char) := return ((← get).lexemes.head?.map Lexeme.start).getD []

/-- Goes behind the next token. -/
def advance : Reader Unit := modify fun input => { input with lexemes := input.lexemes.drop 1 }

/-- The token is a keyword. -/
def isKeyword (keyword : String) : Token → Bool
  | .word w => w.toLower = keyword
  | _ => false

/-- Goes behind the next token if it satisfies a condition. -/
def skipIf (p : Token → Bool) : Reader Bool := do
  match ← peek with
  | some t => if p t then advance; return true else return false
  | none => return false

def skipKeyword (keyword : String) : Reader Bool := skipIf (isKeyword keyword)

def skipSign (s : String) : Reader Bool := skipIf (· = .sign s)

def keyword (keyword : String) : Reader Unit := do
  if !(← skipKeyword keyword) then refuse

def sign (s : String) : Reader Unit := do
  if !(← skipSign s) then refuse

/-- The name that a token is. -/
def nameOf? : Token → Option String
  | .word w => if isReserved w then none else some w
  | .quoted n _ => some n
  | _ => none

/-- The name that a token is where no text can stand, so that a text is a name too. -/
def entityOf? : Token → Option String
  | .text s => some s
  | t => nameOf? t

/-- Reads a token that is a name in the given sense. -/
def named (f : Token → Option String) : Reader String := do
  match (← peek).bind f with
  | some n => advance; return n
  | none => refuse

/-- The name of a table or column. -/
def entity : Reader String := named entityOf?

/-- Reads a name if there is one. -/
def optionalName (f : Token → Option String) : Reader (Option String) := do
  match (← peek).bind f with
  | some n => advance; return some n
  | none => return none

/-- Reads what commas separate. -/
def commaList {α : Type} (element : Reader α) : Reader (List α) := do
  let n := (← get).lexemes.length
  go n
where
  go : Nat → Reader (List α)
    | 0 => return [← element]
    | n + 1 => do
      let first ← element
      if ← skipSign "," then return first :: (← go n) else return [first]

end TaggedRows.Sql.Grammar
