import TaggedRows.Source.Ident
import TaggedRows.Text.Printable

/-!
# Tokens and their plain text

Source text is a sequence of tokens: words, punctuation characters, literals and delimiters. A
punctuation character is *joint* when the next token continues an operator with it.

`Token.print` writes a sequence on one line: tokens are set apart by one space, except after a joint
character and just inside parentheses and brackets. Two tokens are set apart by `gap`, which looks
at no others, so the text of a sequence is put together locally.
-/

namespace TaggedRows

inductive Delimiter where
  | paren | bracket | brace
  deriving DecidableEq, Repr

namespace Delimiter

def opening : Delimiter → Char
  | paren => '('
  | bracket => '['
  | brace => '{'

def closing : Delimiter → Char
  | paren => ')'
  | bracket => ']'
  | brace => '}'

end Delimiter

/-- What a literal denotes, as far as it matters here. -/
inductive LiteralKind where
  /-- A string and its decoded value. -/
  | string (value : String)
  | number
  /-- Characters, bytes, byte strings and zero-terminated strings. -/
  | other
  deriving DecidableEq, Repr

/-- A literal with its spelling. -/
structure Literal where
  kind : LiteralKind
  text : String
  deriving DecidableEq, Repr

inductive Token where
  | word (id : Ident)
  | punct (c : Char) (joint : Bool)
  | literal (l : Literal)
  | opening (d : Delimiter)
  | closing (d : Delimiter)
  deriving DecidableEq, Repr

/-! ## String literals -/

/-- Lower-case hexadecimal digits. -/
def hexText (n : Nat) : List Char :=
  Nat.toDigits 16 n

/-- A character inside a string literal, given the character after it. NUL is `\0` unless a digit
follows that would read as part of an octal code; a character without a visible form of its own is
written by its code point. -/
def quoteChar (c : Char) (next : Option Char) : List Char :=
  if c = '\x00' then
    if next.any fun d => '0' ≤ d && d ≤ '7' then ['\\', 'x', '0', '0'] else ['\\', '0']
  else if c = '\t' then ['\\', 't']
  else if c = '\n' then ['\\', 'n']
  else if c = '\r' then ['\\', 'r']
  else if c = '"' then ['\\', '"']
  else if c = '\\' then ['\\', '\\']
  else if Text.isGraphemeExtend c || !Text.isPrintable c then
    '\\' :: 'u' :: '{' :: (hexText c.toNat ++ ['}'])
  else [c]

/-- The characters of a string literal between its quotes. -/
def quoteBody : List Char → List Char
  | [] => []
  | c :: cs => quoteChar c cs.head? ++ quoteBody cs

/-- The spelling of a string literal with the given value. -/
def quoteString (value : String) : String :=
  String.ofList ('"' :: (quoteBody value.toList ++ ['"']))

namespace Token

/-- A plain word. -/
def kw (name : String) : Token := .word (.plain name)

/-- The string literal with the given value. -/
def str (value : String) : Token := .literal ⟨.string value, quoteString value⟩

/-- An operator: all its characters but the last are joint. -/
def op (text : String) : List Token :=
  go text.toList
where
  go : List Char → List Token
    | [] => []
    | [c] => [.punct c false]
    | c :: d :: cs => .punct c true :: go (d :: cs)

/-! ## Plain text -/

/-- The spelling of one token. -/
def chars : Token → List Char
  | word id => id.text.toList
  | punct c _ => [c]
  | literal l => l.text.toList
  | opening d => [d.opening]
  | closing d => [d.closing]

/-- Whether two neighbouring tokens are set apart by a space. -/
def gap : Token → Token → Bool
  | punct _ true, _ => false
  | opening .paren, _ => false
  | opening .bracket, _ => false
  | _, closing .paren => false
  | _, closing .bracket => false
  | _, _ => true

/-- The characters of the plain text of a sequence of tokens. -/
def printChars : List Token → List Char
  | [] => []
  | [t] => t.chars
  | t :: u :: ts => t.chars ++ ((if t.gap u then [' '] else []) ++ printChars (u :: ts))

/-- The plain text of a sequence of tokens. -/
def print (ts : List Token) : String :=
  String.ofList (printChars ts)

end Token

end TaggedRows
