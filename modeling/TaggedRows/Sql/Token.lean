import TaggedRows.Sql.Value

/-!
# The tokens of a statement

A text of statements is cut into tokens; blanks and comments between them are dropped. A token is
kept in a `Lexeme` with the text from its first character on and the text after it, so its place and
its spelling are known, and `lexemes` depends on the text that is left alone.
-/

namespace TaggedRows.Sql

inductive Token where
  /-- A keyword or a name. -/
  | word (name : String)
  /-- A name between quotes or brackets; within double quotes it may turn out to be a text. -/
  | quoted (name : String) (isDouble : Bool)
  | text (s : String)
  | integer (n : Nat)
  | real (d : Decimal)
  | blob (bytes : List UInt8)
  | parameter
  | sign (text : String)
  | illegal
  deriving DecidableEq, Repr

structure Lexeme where
  token : Token
  /-- The text from the token on. -/
  start : List Char
  /-- The text behind the token. -/
  stop : List Char
  deriving Repr

namespace Lexeme

/-- The part of a text before another part at its end. -/
def between (start stop : List Char) : String :=
  String.ofList (start.take (start.length - stop.length))

/-- The token as it is written. -/
def written (l : Lexeme) : String := between l.start l.stop

end Lexeme

namespace Token

/-! ## Characters -/

/-- The character may stand in a name. -/
def isNameChar (c : Char) : Bool := c.isAlphanum || c = '_' || c = '$' || 0x80 ≤ c.toNat

/-- The character may begin a name. -/
def isNameStart (c : Char) : Bool := c.isAlpha || c = '_' || 0x80 ≤ c.toNat

/-- The character separates tokens. -/
def isSpace (c : Char) : Bool := c ∈ [' ', '\t', '\n', '\x0c', '\x0d', '\ufeff']

/-- The value of a hexadecimal digit. -/
def hexValue? (c : Char) : Option Nat :=
  if '0' ≤ c ∧ c ≤ '9' then some (c.toNat - '0'.toNat)
  else if 'a' ≤ c ∧ c ≤ 'f' then some (c.toNat - 'a'.toNat + 10)
  else if 'A' ≤ c ∧ c ≤ 'F' then some (c.toNat - 'A'.toNat + 10)
  else none

/-! ## Parts of tokens -/

/-- The content up to a quote, with a doubled quote for a single one, and the number of characters
up to the end of the quote. -/
def quotedContent? (quote : Char) : List Char → Option (List Char × Nat)
  | [] => none
  | [c] => if c = quote then some ([], 1) else none
  | c :: d :: rest =>
    if c = quote then
      if d = quote then (quotedContent? quote rest).map fun (cs, n) => (quote :: cs, n + 2)
      else some ([], 1)
    else (quotedContent? quote (d :: rest)).map fun (cs, n) => (c :: cs, n + 1)

/-- The number of characters up to the end of a comment, or all of them. -/
def commentLength : List Char → Nat
  | '*' :: '/' :: _ => 2
  | _ :: rest => commentLength rest + 1
  | [] => 0

/-- The bytes of an even number of hexadecimal digits. -/
def hexBytes? : List Char → Option (List UInt8)
  | [] => some []
  | a :: b :: rest => do
    let high ← hexValue? a
    let low ← hexValue? b
    let bytes ← hexBytes? rest
    some ((16 * high + low).toUInt8 :: bytes)
  | [_] => none

/-- The operators of several characters, the longer ones first. -/
def longSigns : List String := ["->>", "==", "<=", "<>", "<<", ">=", ">>", "!=", "||", "->"]

/-- The operator that a text begins with. -/
def signAt? (cs : List Char) : Option String :=
  match longSigns.find? fun s => s.toList.isPrefixOf cs with
  | some s => some s
  | none =>
    match cs with
    | c :: _ =>
      if c ∈ "();,.=<>+-*/%|&~".toList then some (String.singleton c) else none
    | [] => none

/-- The number that a text begins with and its length. A name may not follow it directly. -/
def number (cs : List Char) : Token × Nat :=
  let whole := cs.takeWhile Char.isDigit
  let rest := cs.drop whole.length
  let (hasPoint, rest) := match rest with
    | '.' :: rest => (true, rest)
    | _ => (false, rest)
  let fraction := if hasPoint then rest.takeWhile Char.isDigit else []
  let (exponent, after) := Value.exponentOf (rest.drop fraction.length)
  let hasExponent := after.length ≠ (rest.drop fraction.length).length
  let surplus := after.takeWhile isNameChar
  let length := cs.length - after.length
  if surplus ≠ [] then (.illegal, length + surplus.length)
  else
    let mantissa := Value.digitsValue (whole ++ fraction)
    if hasPoint || hasExponent then (.real ⟨mantissa, exponent - fraction.length⟩, length)
    else (.integer mantissa, length)

/-- The quoted token behind a quote; a quote without an end spoils the rest of the text. -/
def quotedToken (quote : Char) (rest : List Char) : Token × Nat :=
  match quotedContent? quote rest with
  | none => (.illegal, rest.length)
  | some (cs, n) =>
    if quote = '\'' then (.text (String.ofList cs), n)
    else (.quoted (String.ofList cs) (quote = '"'), n)

/-- The bytes behind an `x` and a quote. -/
def blobToken (rest : List Char) : Token × Nat :=
  let body := rest.takeWhile (· ≠ '\'')
  let closed := body.length < rest.length
  match hexBytes? body with
  | some bytes => if closed then (.blob bytes, body.length + 2) else (.illegal, rest.length + 1)
  | none => (.illegal, if closed then body.length + 2 else rest.length + 1)

/-- The word that begins with a character. -/
def wordToken (c : Char) (rest : List Char) : Token × Nat :=
  let more := rest.takeWhile isNameChar
  (.word (String.ofList (c :: more)), more.length)

/-! ## Tokens -/

/-- The token that begins with a character, or nothing for a blank or a comment, and the number of
characters that belong to it besides the first. -/
def itemAt (c : Char) (rest : List Char) : Option Token × Nat :=
  if isSpace c then (none, 0)
  else if c = '-' && rest.head? = some '-' then (none, (rest.takeWhile (· ≠ '\n')).length)
  else if c = '/' && rest.head? = some '*' && 2 ≤ rest.length then
    (none, 1 + commentLength (rest.drop 1))
  else
    let (token, n) :=
      if c = '\'' || c = '"' || c = '\x60' then quotedToken c rest
      else if c = '[' then
        let body := rest.takeWhile (· ≠ ']')
        if body.length < rest.length then
          (.quoted (String.ofList body) false, body.length + 1)
        else (.illegal, rest.length)
      else if c.isDigit || c = '.' && rest.head?.any Char.isDigit then
        let (token, n) := number (c :: rest)
        (token, n - 1)
      else if c = '?' then (.parameter, (rest.takeWhile Char.isDigit).length)
      else if c = ':' || c = '@' || c = '$' || c = '#' then
        let name := rest.takeWhile isNameChar
        (if name = [] then .illegal else .parameter, name.length)
      else if (c = 'x' || c = 'X') && rest.head? = some '\'' then blobToken (rest.drop 1)
      else if isNameStart c then wordToken c rest
      else
        match signAt? (c :: rest) with
        | some s => (.sign s, s.length - 1)
        | none => (.illegal, 0)
    (some token, n)

/-- The tokens of a text. -/
def lexemes : List Char → List Lexeme
  | [] => []
  | c :: rest =>
    let stop := rest.drop (itemAt c rest).2
    match (itemAt c rest).1 with
    | none => lexemes stop
    | some token => ⟨token, c :: rest, stop⟩ :: lexemes stop
termination_by cs => cs.length
decreasing_by all_goals simp only [List.length_drop, List.length_cons]; omega

end Token

end TaggedRows.Sql
