import TaggedRows.Source.Token
import TaggedRows.Text.Blank
import TaggedRows.Text.Identifier
import TaggedRows.Tag.Escape

/-!
# Reading tokens

`Token.lex?` reads a source text: blanks and plain comments are skipped, documentation comments
become attributes, and everything else is a token. It fails on text that is no sequence of tokens
and when delimiters do not match. All scanning is over lists of characters.

String literals are decoded while they are scanned, so a literal token carries its value.
-/

namespace TaggedRows.Lexer

/-- Removes the given characters from the start of a text. -/
def strip? (lead : List Char) (cs : List Char) : Option (List Char) :=
  if lead.isPrefixOf cs then some (cs.drop lead.length) else none

/-- Whether a text starts with the given word. -/
def startsWith (lead : String) (cs : List Char) : Bool :=
  lead.toList.isPrefixOf cs

/-! ## Blanks and comments -/

/-- Blank characters: white space and the two directional marks. -/
def isSpace (c : Char) : Bool :=
  Text.isBlank c || c == '\u200e' || c == '\u200f'

/-- The rest of a line and what follows it. The line break is not taken. -/
def lineRest : List Char → List Char × List Char
  | [] => ([], [])
  | '\n' :: cs => ([], '\n' :: cs)
  | '\r' :: '\n' :: cs => ([], '\n' :: cs)
  | c :: cs => let (line, rest) := lineRest cs; (c :: line, rest)

/-- The body of a block comment after its opening, at the given depth of nesting, with its closing
removed, and what follows it. -/
def blockBody : Nat → List Char → Option (List Char × List Char)
  | _, [] => none
  | _, [_] => none
  | depth, '*' :: '/' :: cs =>
    match depth with
    | 0 => some ([], cs)
    | depth + 1 => (blockBody depth cs).map fun (body, rest) => ('*' :: '/' :: body, rest)
  | depth, '/' :: '*' :: cs =>
    (blockBody (depth + 1) cs).map fun (body, rest) => ('/' :: '*' :: body, rest)
  | depth, c :: d :: cs => (blockBody depth (d :: cs)).map fun (body, rest) => (c :: body, rest)

/-- A comment that documents the item around it or after it. -/
structure DocComment where
  inner : Bool
  text : List Char

/-- What may stand between two tokens. -/
inductive Blank where
  | skipped (rest : List Char)
  | doc (comment : DocComment) (rest : List Char)
  /-- A comment that does not end. -/
  | broken
  | none

/-- Skips one blank or one comment. -/
def blank : List Char → Blank
  | '/' :: '/' :: '!' :: cs => let (line, rest) := lineRest cs; .doc ⟨true, line⟩ rest
  | '/' :: '/' :: '/' :: '/' :: cs => .skipped (lineRest cs).2
  | '/' :: '/' :: '/' :: cs => let (line, rest) := lineRest cs; .doc ⟨false, line⟩ rest
  | '/' :: '/' :: cs => .skipped (lineRest cs).2
  | '/' :: '*' :: '*' :: '/' :: cs => .skipped cs
  | '/' :: '*' :: '!' :: cs => close true cs
  | '/' :: '*' :: '*' :: '*' :: cs => skip ('*' :: '*' :: cs)
  | '/' :: '*' :: '*' :: cs => close false cs
  | '/' :: '*' :: cs => skip cs
  | c :: cs => if isSpace c then .skipped cs else .none
  | [] => .none
where
  close (inner : Bool) (cs : List Char) : Blank :=
    match blockBody 0 cs with
    | some (body, rest) => .doc ⟨inner, body⟩ rest
    | Option.none => .broken
  skip (cs : List Char) : Blank :=
    match blockBody 0 cs with
    | some (_, rest) => .skipped rest
    | Option.none => .broken

/-- No carriage return stands alone. -/
def noBareReturn : List Char → Bool
  | [] => true
  | '\r' :: '\n' :: cs => noBareReturn cs
  | '\r' :: _ => false
  | _ :: cs => noBareReturn cs

/-- A documentation comment as the attribute that it stands for. -/
def DocComment.tokens (c : DocComment) : List Token :=
  .punct '#' false :: ((if c.inner then [.punct '!' false] else []) ++
    [.opening .bracket, .kw "doc", .punct '=' false, .str (String.ofList c.text),
      .closing .bracket])

/-! ## Literals -/

/-- Reads the digits of `\u{…}` after the brace, one to six of them, with underscores after the
first. -/
def bracedCode : Nat → Nat → List Char → Option (Char × List Char)
  | _, _, [] => none
  | len, value, c :: cs =>
    match Tag.hexDigit? c with
    | some d => if len = 6 then none else bracedCode (len + 1) (value * 16 + d) cs
    | none =>
      if len = 0 then none
      else if c = '_' then bracedCode len value cs
      else if c = '}' then (Tag.scalar? value).map fun v => (v, cs)
      else none

/-- The simple escapes of strings and characters. -/
def letterEscape? : Char → Option Char
  | 'n' => some '\n'
  | 'r' => some '\r'
  | 't' => some '\t'
  | '\\' => some '\\'
  | '\'' => some '\''
  | '"' => some '"'
  | '0' => some '\x00'
  | _ => none

/-- An escape of a string, after its backslash. -/
def escape? : List Char → Option (Char × List Char)
  | 'x' :: c :: d :: cs =>
    match Tag.octalDigit? c, Tag.hexDigit? d with
    | some m, some n => (Tag.scalar? (16 * m + n)).map fun v => (v, cs)
    | _, _ => none
  | 'u' :: '{' :: cs => bracedCode 0 0 cs
  | c :: cs => (letterEscape? c).map fun v => (v, cs)
  | [] => none

/-- Skips the blanks of a continued line; the character before them is a line break. A carriage
return is only blank before a newline. -/
def continued : List Char → Option (List Char)
  | '\r' :: '\n' :: cs => continued cs
  | '\r' :: _ => none
  | c :: cs => if c == ' ' || c == '\t' || c == '\n' then continued cs else some (c :: cs)
  | [] => none

/-- The value of a string literal after its opening quote, and what follows the closing one. -/
def stringBody : Nat → List Char → Option (List Char × List Char)
  | 0, _ => none
  | _ + 1, [] => none
  | fuel + 1, c :: cs =>
    if c = '"' then some ([], cs)
    else if c = '\r' then
      match cs with
      | '\n' :: cs => (stringBody fuel cs).map fun (body, rest) => ('\n' :: body, rest)
      | _ => none
    else if c = '\\' then
      match cs with
      | '\n' :: cs => (continued cs).bind (stringBody fuel)
      | '\r' :: '\n' :: cs => (continued cs).bind (stringBody fuel)
      | _ => (escape? cs).bind fun (v, cs) =>
        (stringBody fuel cs).map fun (body, rest) => (v :: body, rest)
    else (stringBody fuel cs).map fun (body, rest) => (c :: body, rest)

/-- A raw literal after its opening quote: the text up to a quote followed by the given hashes.
`keep` refuses characters that the literal may not hold. -/
def rawBody (keep : Char → Bool) (hashes : List Char) :
    List Char → Option (List Char × List Char)
  | [] => none
  | c :: cs =>
    if c = '"' && hashes.isPrefixOf cs then some ([], cs.drop hashes.length)
    else if !keep c then none
    else if c = '\r' && cs.head? ≠ some '\n' then none
    else (rawBody keep hashes cs).map fun (body, rest) => (c :: body, rest)

/-- A raw literal after its letters: hashes, a quote and the body. -/
def raw? (keep : Char → Bool) (cs : List Char) : Option (List Char × List Char) :=
  let hashes := cs.takeWhile (· == '#')
  match cs.dropWhile (· == '#') with
  | '"' :: cs => if hashes.length ≤ 255 then rawBody keep hashes cs else none
  | _ => none

/-- The end of a byte string or zero-terminated string after its opening quote. `code` says which
two-digit codes may stand after `\x`. -/
def bytesBody (keep : Char → Bool) (unicode : Bool) (code : Nat → Bool) :
    Nat → List Char → Option (List Char)
  | 0, _ => none
  | _ + 1, [] => none
  | fuel + 1, c :: cs =>
    if c = '"' then some cs
    else if !keep c then none
    else if c = '\r' then
      match cs with
      | '\n' :: cs => bytesBody keep unicode code fuel cs
      | _ => none
    else if c = '\\' then
      match cs with
      | '\n' :: cs => (continued cs).bind (bytesBody keep unicode code fuel)
      | '\r' :: '\n' :: cs => (continued cs).bind (bytesBody keep unicode code fuel)
      | 'x' :: d :: e :: cs =>
        match Tag.hexDigit? d, Tag.hexDigit? e with
        | some m, some n =>
          if code (16 * m + n) then bytesBody keep unicode code fuel cs else none
        | _, _ => none
      | 'u' :: '{' :: cs =>
        if unicode then
          (bracedCode 0 0 cs).bind fun (v, cs) =>
            if v = '\x00' then none else bytesBody keep unicode code fuel cs
        else none
      | d :: cs =>
        if (letterEscape? d).isSome && (code 0 || d ≠ '0') then
          bytesBody keep unicode code fuel cs
        else none
      | [] => none
    else bytesBody keep unicode code fuel cs

/-- One character of a character literal, escaped or not. -/
def charBody? : List Char → Option (List Char)
  | '\\' :: cs => (escape? cs).map (·.2)
  | _ :: cs => some cs
  | [] => none

/-- One byte of a byte literal, escaped or not. -/
def byteBody? : List Char → Option (List Char)
  | '\\' :: 'x' :: c :: d :: cs =>
    if (Tag.hexDigit? c).isSome && (Tag.hexDigit? d).isSome then some cs else none
  | '\\' :: c :: cs => if (letterEscape? c).isSome then some cs else none
  | c :: cs => if c.toNat < 0x80 && c ≠ '\\' then some cs else none
  | [] => none

/-- A word at the start of a text. -/
def wordRest? : List Char → Option (List Char × List Char)
  | [] => none
  | c :: cs =>
    if Text.isIdentStart c then
      some (c :: cs.takeWhile Text.isIdentContinue, cs.dropWhile Text.isIdentContinue)
    else none

/-- A literal may end in a word, its suffix. -/
def dropSuffix (cs : List Char) : List Char :=
  ((wordRest? cs).map (·.2)).getD cs

/-- No identifier character follows. -/
def wordBreak (cs : List Char) : Bool :=
  !(cs.head?.any Text.isIdentContinue)

def isDigit (c : Char) : Bool := '0' ≤ c && c ≤ '9'

/-- The digits and the point of a decimal fraction: how the number goes on after them. -/
inductive FloatHead where
  | plain (hasDot : Bool) (rest : List Char)
  /-- An `e` follows; `before` is the text from it on. -/
  | exponent (hasDot : Bool) (before rest : List Char)
  | refused

/-- Digits, underscores and at most one point. -/
def floatHead : Bool → List Char → FloatHead
  | hasDot, [] => .plain hasDot []
  | hasDot, c :: cs =>
    if isDigit c || c = '_' then floatHead hasDot cs
    else if c = '.' then
      if hasDot then .plain hasDot (c :: cs)
      else if cs.head?.any fun d => d == '.' || Text.isIdentStart d then .refused
      else floatHead true cs
    else if c = 'e' || c = 'E' then .exponent hasDot (c :: cs) cs
    else .plain hasDot (c :: cs)

/-- The exponent of a decimal fraction after its `e`: a sign at most once, before the digits. -/
def exponentRest (fallback : Option (List Char)) : Bool → Bool → List Char → Option (List Char)
  | _, hasValue, [] => if hasValue then some [] else fallback
  | hasSign, hasValue, c :: cs =>
    if c = '+' || c = '-' then
      if hasValue then some (c :: cs)
      else if hasSign then fallback
      else exponentRest fallback true hasValue cs
    else if isDigit c then exponentRest fallback hasSign true cs
    else if c = '_' then exponentRest fallback hasSign hasValue cs
    else if hasValue then some (c :: cs) else fallback

/-- What follows a decimal fraction. -/
def floatRest? (cs : List Char) : Option (List Char) := do
  guard (cs.head?.any isDigit)
  let rest ← match floatHead false cs with
    | .plain hasDot rest => if hasDot then some rest else none
    | .exponent hasDot before rest =>
      exponentRest (if hasDot then some before else none) false false rest
    | .refused => none
  let rest ← if rest.head?.any Text.isIdentStart then (wordRest? rest).map (·.2) else some rest
  guard (wordBreak rest)
  return rest

/-- The digits of a whole number in the given base; a digit above nine that is too large ends the
number, a decimal one is an error. -/
def intDigits (base : Nat) : Bool → List Char → Option (List Char)
  | empty, [] => if empty then none else some []
  | empty, c :: cs =>
    if c = '_' then if empty && base = 10 then none else intDigits base empty cs
    else match Tag.hexDigit? c with
      | some d =>
        if d < base then intDigits base false cs
        else if isDigit c then none
        else if empty then none else some (c :: cs)
      | none => if empty then none else some (c :: cs)

/-- What follows a whole number. -/
def intRest? (cs : List Char) : Option (List Char) := do
  let rest ← match cs with
    | '0' :: 'x' :: cs => intDigits 16 true cs
    | '0' :: 'o' :: cs => intDigits 8 true cs
    | '0' :: 'b' :: cs => intDigits 2 true cs
    | cs => intDigits 10 true cs
  let rest ← if rest.head?.any Text.isIdentStart then (wordRest? rest).map (·.2) else some rest
  guard (wordBreak rest)
  return rest

/-- A literal at the start of a text: its kind, and what follows it. -/
def literal? (cs : List Char) : Option (LiteralKind × List Char) :=
  let fuel := cs.length + 1
  let other (r : Option (List Char)) := r.map fun rest => (LiteralKind.other, dropSuffix rest)
  let string (r : Option (List Char × List Char)) :=
    r.map fun (body, rest) => (LiteralKind.string (String.ofList body), dropSuffix rest)
  let quote (r : Option (List Char)) := r.bind (strip? ['\''])
  let number (_ : Unit) :=
    ((floatRest? cs).orElse fun _ => intRest? cs).map fun rest => (LiteralKind.number, rest)
  match cs with
  | '"' :: cs => string (stringBody fuel cs)
  | 'r' :: cs => string (raw? (fun _ => true) cs)
  | 'b' :: '"' :: cs => other (bytesBody (·.toNat < 0x80) false (fun _ => true) fuel cs)
  | 'b' :: 'r' :: cs => other ((raw? (·.toNat < 0x80) cs).map (·.2))
  | 'c' :: '"' :: cs => other (bytesBody (· ≠ '\x00') true (· ≠ 0) fuel cs)
  | 'c' :: 'r' :: cs => other ((raw? (· ≠ '\x00') cs).map (·.2))
  | 'b' :: '\'' :: cs => other (quote (byteBody? cs))
  | '\'' :: cs => other (quote (charBody? cs))
  | _ => number ()

/-! ## Words and punctuation -/

/-- Characters of operators. -/
def isPunct (c : Char) : Bool :=
  "~!@#$%^&*-=+|;:,<.>/?'".toList.contains c

/-- A punctuation character, unless a comment begins here. -/
def punctChar? (cs : List Char) : Option (Char × List Char) :=
  match cs with
  | '/' :: '/' :: _ => none
  | '/' :: '*' :: _ => none
  | c :: cs => if isPunct c then some (c, cs) else none
  | [] => none

/-- A word with or without the raw prefix. -/
def anyWord? (cs : List Char) : Option (Ident × List Char) :=
  match cs with
  | 'r' :: '#' :: cs =>
    (wordRest? cs).bind fun (w, rest) =>
      let name := String.ofList w
      if Ident.unrawable.contains name then none else some (⟨true, name⟩, rest)
  | cs => (wordRest? cs).map fun (w, rest) => (⟨false, String.ofList w⟩, rest)

/-- A word, unless a literal with a letter in front begins here. -/
def word? (cs : List Char) : Option (Ident × List Char) :=
  if ["r\"", "r#\"", "r##", "b\"", "b'", "br\"", "br#", "c\"", "cr\"", "cr#"].any
      (startsWith · cs) then none
  else anyWord? cs

/-- A punctuation token. A quote must begin a lifetime. -/
def punct? (cs : List Char) : Option (Token × List Char) :=
  (punctChar? cs).bind fun (c, rest) =>
    if c = '\'' then
      (anyWord? rest).bind fun (_, after) =>
        if after.head? = some '\'' || (after.head? = some '#' && !startsWith "r#" rest) then none
        else some (.punct '\'' true, rest)
    else some (.punct c (punctChar? rest).isSome, rest)

/-- The delimiter that a character opens or closes. -/
def delimiter? : Char → Option Token
  | '(' => some (.opening .paren)
  | '[' => some (.opening .bracket)
  | '{' => some (.opening .brace)
  | ')' => some (.closing .paren)
  | ']' => some (.closing .bracket)
  | '}' => some (.closing .brace)
  | _ => none

/-- The token at the start of a text without blanks. -/
def token? (cs : List Char) : Option (Token × List Char) :=
  match cs.head?.bind delimiter? with
  | some t => some (t, cs.tail)
  | none =>
    match literal? cs with
    | some (kind, rest) =>
      let text := String.ofList (cs.take (cs.length - rest.length))
      some (.literal ⟨kind, text⟩, rest)
    | none =>
      (punct? cs).orElse fun _ => (word? cs).map fun (id, rest) => (.word id, rest)

/-! ## The whole text -/

/-- All tokens of a text. Each step takes at least one character, so the length of the text bounds
the number of steps. -/
def tokens : Nat → List Char → Option (List Token)
  | _, [] => some []
  | 0, _ :: _ => none
  | fuel + 1, cs =>
    match blank cs with
    | .skipped rest => tokens fuel rest
    | .doc c rest =>
      if noBareReturn c.text then (tokens fuel rest).map (c.tokens ++ ·) else none
    | .broken => none
    | .none => (token? cs).bind fun (t, rest) => (tokens fuel rest).map (t :: ·)

/-- Every delimiter closes the last open one, and none stays open. -/
def balanced : List Delimiter → List Token → Bool
  | stack, [] => stack.isEmpty
  | stack, .opening d :: ts => balanced (d :: stack) ts
  | stack, .closing d :: ts =>
    match stack with
    | e :: stack => d == e && balanced stack ts
    | [] => false
  | stack, _ :: ts => balanced stack ts

end TaggedRows.Lexer

namespace TaggedRows.Token

/-- Reads a text as tokens with matching delimiters. A byte order mark at its start is skipped. -/
def lexChars? (cs : List Char) : Option (List Token) := do
  let cs := if cs.head? = some '\ufeff' then cs.tail else cs
  let ts ← Lexer.tokens cs.length cs
  guard (Lexer.balanced [] ts)
  return ts

/-- Reads a text as tokens with matching delimiters. -/
def lex? (text : String) : Option (List Token) :=
  lexChars? text.toList

end TaggedRows.Token
