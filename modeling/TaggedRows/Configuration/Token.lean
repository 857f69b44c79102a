import TaggedRows.Configuration.Scalar

/-!
# The tokens of a document

Brackets and indicators are tokens as they are written. The structure that indents give is made
explicit: a deeper column opens a collection, and a lesser one closes it. What stands before a colon
turns out to be a key only there, so the place where a key may begin is remembered
(`KeyPlace`), and the tokens that open it are put in afterwards.
-/

namespace TaggedRows.Configuration

inductive Token where
  /-- A line that begins with a percent sign. -/
  | directive
  | documentStart
  | documentEnd
  | blockSequenceStart
  | blockMappingStart
  | blockEnd
  | flowSequenceStart
  | flowSequenceEnd
  | flowMappingStart
  | flowMappingEnd
  /-- The dash in front of an element. -/
  | blockEntry
  /-- The comma behind an element. -/
  | flowEntry
  | key
  | value
  | aliasOf (anchor : String)
  | anchor (name : String)
  /-- The name of a type; `null` is told from all others. -/
  | tag (isNull : Bool)
  | scalar (text : String) (isPlain : Bool)
  deriving DecidableEq, Repr

/-- A place where a key may have begun. -/
structure KeyPlace where
  /-- Only a key may stand there. -/
  isRequired : Bool
  /-- The number of tokens before. -/
  token : Nat
  line : Nat
  column : Nat
  index : Nat
  deriving Repr

/-- What has been read of a document. -/
structure Reading where
  cursor : Cursor
  tokens : List Token
  /-- The column of the open block; less than zero outside of all. -/
  indent : Int
  /-- The columns of the blocks around. -/
  outer : List Int
  /-- A key may begin at the next token. -/
  keyAllowed : Bool
  /-- The place of a key on this level, outside of brackets or in the innermost ones. -/
  place : Option KeyPlace
  /-- The places on the levels around; one for every open bracket. -/
  places : List (Option KeyPlace)
  deriving Repr

namespace Reading

def start (cs : List Char) : Reading := ⟨.ofText cs, [], -1, [], true, none, []⟩

variable (r : Reading)

/-- The cursor is inside of brackets. -/
def inFlow : Bool := !r.places.isEmpty

def emit (t : Token) : Reading := { r with tokens := r.tokens ++ [t] }

/-- Puts a token in front of the last ones, so that it becomes the one with the given number. -/
def insert (n : Nat) (t : Token) : Reading :=
  { r with tokens := r.tokens.take n ++ t :: r.tokens.drop n }

/-- Skips characters and writes a token for them. -/
def take (n : Nat) (t : Token) : Reading :=
  { r.emit t with cursor := r.cursor.skip n }

/-! ## Blocks -/

/-- Opens a block at a column if it is deeper than the open one. -/
def openBlock (column number : Nat) (t : Token) : Reading :=
  if r.inFlow || column ≤ r.indent then r
  else { r.insert number t with indent := column, outer := r.indent :: r.outer }

/-- Closes the blocks that are deeper than a column. -/
def closeBlocks (column : Int) : Reading :=
  if r.inFlow then r else go r.outer r.indent r.tokens
where
  go : List Int → Int → List Token → Reading
    | around, indent, tokens =>
      if column < indent then
        match around with
        | [] => { r with tokens := tokens ++ [.blockEnd], indent := -1, outer := [] }
        | next :: around => go around next (tokens ++ [.blockEnd])
      else { r with tokens, indent, outer := around }

/-! ## Places of keys -/

/-- Gives the place of a key up, which fails where only a key may stand. -/
def dropPlace : Option Reading :=
  if r.place.any KeyPlace.isRequired then none else some { r with place := none }

/-- Gives up the places of keys that are too far back: a key stands on one line and is short. -/
def dropStale : Option Reading :=
  let isStale (p : KeyPlace) : Bool :=
    p.line < r.cursor.line || p.index + 1024 < r.cursor.index
  let check (p : Option KeyPlace) : Option (Option KeyPlace) :=
    if p.any isStale then if p.any KeyPlace.isRequired then none else some none else some p
  (check r.place).bind fun place =>
    (r.places.mapM check).map fun places => { r with place, places }

/-- Remembers that a key may begin here. -/
def savePlace : Option Reading :=
  if r.keyAllowed then
    r.dropPlace.map fun r =>
      { r with place := some {
          isRequired := !r.inFlow && r.indent = r.cursor.column
          token := r.tokens.length
          line := r.cursor.line
          column := r.cursor.column
          index := r.cursor.index } }
  else some r

/-! ## Single tokens -/

/-- Skips blanks, comments and line breaks. Behind a line break outside of brackets a key may
begin. -/
def skipGap : Nat → Reading → Reading
  | 0, r => r
  | fuel + 1, r =>
    let isGap (c : Char) : Bool := c = ' ' || ((r.inFlow || !r.keyAllowed) && c = '\t')
    let cur := r.cursor.skipWhile isGap
    let cur := if cur.at? '#' then cur.skipWhile fun c => !isBreak c else cur
    if cur.atBreak then
      skipGap fuel { r with cursor := cur.takeBreak.2, keyAllowed := r.keyAllowed || !r.inFlow }
    else { r with cursor := cur }

/-- An opening bracket. -/
def openFlow (t : Token) : Option Reading :=
  r.savePlace.map fun r =>
    { r.take 1 t with place := none, places := r.place :: r.places, keyAllowed := true }

/-- A closing bracket. -/
def closeFlow (t : Token) : Option Reading :=
  r.dropPlace.map fun r =>
    { r.take 1 t with
      place := r.places.head?.getD none, places := r.places.tail, keyAllowed := false }

def flowEntry : Option Reading :=
  r.dropPlace.map fun r => { r.take 1 .flowEntry with keyAllowed := true }

def blockEntry : Option Reading :=
  if !r.inFlow && !r.keyAllowed then none
  else
    (r.openBlock r.cursor.column r.tokens.length .blockSequenceStart).dropPlace.map fun r =>
      { r.take 1 .blockEntry with keyAllowed := true }

/-- The mark of a key that does not end at a colon on its line. -/
def explicitKey : Option Reading :=
  if !r.inFlow && !r.keyAllowed then none
  else
    (r.openBlock r.cursor.column r.tokens.length .blockMappingStart).dropPlace.map fun r =>
      { r.take 1 .key with keyAllowed := !r.inFlow }

/-- The colon behind a key. -/
def value : Option Reading :=
  match r.place with
  | some p =>
    let r := (r.insert p.token .key).openBlock p.column p.token .blockMappingStart
    some { r.take 1 .value with place := none, keyAllowed := false }
  | none =>
    if !r.inFlow && !r.keyAllowed then none
    else
      let r := r.openBlock r.cursor.column r.tokens.length .blockMappingStart
      some { r.take 1 .value with keyAllowed := !r.inFlow }

/-- A mark between documents. -/
def documentMark (t : Token) : Option Reading :=
  (r.closeBlocks (-1)).dropPlace.map fun r => { r.take 3 t with keyAllowed := false }

def directive : Option Reading :=
  (r.closeBlocks (-1)).dropPlace.map fun r =>
    { r.emit .directive with
      cursor := r.cursor.skipWhile fun c => !isBreak c, keyAllowed := false }

/-- Characters of the names of anchors. -/
def isNameChar (c : Char) : Bool :=
  ('0' ≤ c && c ≤ '9') || ('a' ≤ c && c ≤ 'z') || ('A' ≤ c && c ≤ 'Z') || c = '-' || c = '_'

/-- An anchor, or a reference to one. -/
def reference (make : String → Token) : Option Reading :=
  r.savePlace.bind fun r =>
    let name := (r.cursor.rest.drop 1).takeWhile isNameChar
    let behind := r.cursor.skip (name.length + 1)
    let ends := behind.isBlankOrEndAt 0 ||
      (behind.peek 0).any ['?', ':', ',', ']', '}', '%', '@', '\x60'].contains
    if name = [] || !ends then none
    else some { r.emit (make (String.ofList name)) with cursor := behind, keyAllowed := false }

/-- The name of a type. -/
def tag : Option Reading :=
  r.savePlace.map fun r =>
    let name := r.cursor.rest.takeWhile fun c =>
      !(isBlank c || isBreak c || (r.inFlow && isFlowIndicator c))
    let isNull := name = "!!null".toList || name = "!<tag:yaml.org,2002:null>".toList
    { r.emit (.tag isNull) with cursor := r.cursor.skip name.length, keyAllowed := false }

def quoted (quote : Char) : Option Reading :=
  r.savePlace.bind fun r =>
    (takeQuoted quote (r.cursor.rest.length + 1) (r.cursor.skip 1)).map fun (cs, cursor) =>
      { r.emit (.scalar (String.ofList cs) false) with cursor, keyAllowed := false }

def blockScalar (isLiteral : Bool) : Option Reading :=
  r.dropPlace.bind fun r =>
    (takeBlock isLiteral r.indent (r.cursor.skip 1)).map fun (cs, cursor) =>
      { r.emit (.scalar (String.ofList cs) false) with cursor, keyAllowed := true }

def plain : Option Reading :=
  r.savePlace.bind fun r =>
    (takePlain r.inFlow (r.indent + 1).toNat (r.cursor.rest.length + 1) .empty r.cursor).map
      fun (cs, endsLine, cursor) =>
        { r.emit (.scalar (String.ofList cs) true) with cursor, keyAllowed := endsLine }

/-- A character that cannot begin a plain scalar, unless a word follows some of them. -/
def isIndicator (c : Char) : Bool :=
  ['-', '?', ':', ',', '[', ']', '{', '}', '#', '&', '*', '!', '|', '>', '\'', '"', '%', '@',
    '\x60'].contains c

/-- A plain scalar begins with the character. -/
def beginsPlain (c : Char) : Bool :=
  if isBlank c || isBreak c then false
  else if isIndicator c then
    (c = '-' && !(r.cursor.peek 1).any isBlank) ||
      (!r.inFlow && (c = '?' || c = ':') && !r.cursor.isBlankOrEndAt 1)
  else true

/-- Reads the token that begins with a character. -/
def next (c : Char) : Option Reading :=
  let alone := r.cursor.isBlankOrEndAt 1
  if r.cursor.column = 0 && c = '%' then r.directive
  else if r.cursor.atMark then
    r.documentMark (if c = '-' then .documentStart else .documentEnd)
  else if c = '[' then r.openFlow .flowSequenceStart
  else if c = '{' then r.openFlow .flowMappingStart
  else if c = ']' then r.closeFlow .flowSequenceEnd
  else if c = '}' then r.closeFlow .flowMappingEnd
  else if c = ',' then r.flowEntry
  else if c = '-' && alone then r.blockEntry
  else if c = '?' && (r.inFlow || alone) then r.explicitKey
  else if c = ':' && (r.inFlow || alone) then r.value
  else if c = '*' then r.reference .aliasOf
  else if c = '&' then r.reference .anchor
  else if c = '!' then r.tag
  else if c = '|' && !r.inFlow then r.blockScalar true
  else if c = '>' && !r.inFlow then r.blockScalar false
  else if c = '\'' || c = '"' then r.quoted c
  else if r.beginsPlain c then r.plain
  else none

/-- Reads to the end. The bound on the number of tokens is the length of the text. -/
def run : Nat → Reading → Option (List Token)
  | 0, _ => none
  | fuel + 1, r =>
    (skipGap (r.cursor.rest.length + 1) r).dropStale.bind fun r =>
      let r := r.closeBlocks r.cursor.column
      match r.cursor.rest.head? with
      | none => ((r.closeBlocks (-1)).dropPlace).map Reading.tokens
      | some c => (r.next c).bind (run fuel)

end Reading

/-- The tokens of a document. A byte order mark at its start is skipped. -/
def Token.ofText? (text : String) : Option (List Token) :=
  let cs := text.toList
  let cs := if cs.head? = some '\ufeff' then cs.tail else cs
  if cs.all isAllowed then Reading.run (2 * cs.length + 2) (.start cs) else none

end TaggedRows.Configuration
