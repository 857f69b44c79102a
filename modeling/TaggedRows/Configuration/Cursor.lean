/-!
# Reading a document by lines and columns

The structure of a document shows in its columns, so a cursor carries its place along. A document
has five line breaks, of which all but the last two are read as a line feed.
-/

namespace TaggedRows.Configuration

/-- A place in a text, with the text from there on. -/
structure Cursor where
  rest : List Char
  line : Nat
  column : Nat
  /-- The number of characters before. -/
  index : Nat
  deriving Repr

/-- A character that ends a line. -/
def isBreak (c : Char) : Bool :=
  c = '\n' || c = '\r' || c = '\x85' || c = '\u2028' || c = '\u2029'

def isBlank (c : Char) : Bool := c = ' ' || c = '\t'

/-- Characters that may stand in a document. -/
def isAllowed (c : Char) : Bool :=
  c = '\t' || c = '\n' || c = '\r' || (' ' ≤ c && c ≤ '~') || c = '\x85' ||
    ('\xa0' ≤ c && c ≤ '\ufffd') || '\uffff' < c

namespace Cursor

def ofText (cs : List Char) : Cursor := ⟨cs, 0, 0, 0⟩

variable (cur : Cursor)

/-- The character that many places further on. -/
def peek (n : Nat) : Option Char := cur.rest[n]?

def atEnd : Bool := cur.rest.isEmpty

def atBreak : Bool := cur.rest.head?.any isBreak

def atBlank : Bool := cur.rest.head?.any isBlank

def at? (c : Char) : Bool := cur.rest.head? = some c

/-- A blank, a line break or the end is that many places further on. -/
def isBlankOrEndAt (n : Nat) : Bool :=
  match cur.peek n with
  | none => true
  | some c => isBlank c || isBreak c

/-- Skips characters within a line. -/
def skip (n : Nat) : Cursor :=
  { cur with rest := cur.rest.drop n, column := cur.column + n, index := cur.index + n }

/-- Takes a line break: how it is read, and the place behind it. -/
def takeBreak : List Char × Cursor :=
  let next (n : Nat) (rest : List Char) : Cursor := ⟨rest, cur.line + 1, 0, cur.index + n⟩
  match cur.rest with
  | '\r' :: '\n' :: rest => (['\n'], next 2 rest)
  | c :: rest =>
    if c = '\u2028' ∨ c = '\u2029' then ([c], next 1 rest) else (['\n'], next 1 rest)
  | [] => ([], cur)

/-- Skips characters of a line while they are in a class. -/
def skipWhile (p : Char → Bool) : Cursor :=
  cur.skip (cur.rest.takeWhile p).length

/-- One of the two marks between documents stands at the start of the line. -/
def atMark : Bool :=
  cur.column = 0 && cur.isBlankOrEndAt 3 &&
    (cur.rest.take 3 = ['-', '-', '-'] || cur.rest.take 3 = ['.', '.', '.'])

end Cursor

/-! ## Blanks and breaks inside of scalars -/

/-- What stands between two words of a scalar. -/
structure Gap where
  /-- The blanks, when there is no line break. -/
  blanks : List Char
  /-- The first line break, if there is one. -/
  first : Option (List Char)
  /-- The other line breaks. -/
  more : List Char
  deriving Repr

namespace Gap

def empty : Gap := ⟨[], none, []⟩

/-- How the gap is read: a single line break joins the lines by a space. -/
def text (gap : Gap) : List Char :=
  match gap.first with
  | none => gap.blanks
  | some first =>
    if first = ['\n'] then if gap.more = [] then [' '] else gap.more else first ++ gap.more

/-- Takes blanks and line breaks. A tab in front of the given column is refused. The bound is the
length of the text. -/
def take (column : Nat) : Nat → Gap → Cursor → Option (Gap × Cursor)
  | 0, gap, cur => some (gap, cur)
  | fuel + 1, gap, cur =>
    if cur.atBlank then
      if gap.first.isSome && cur.column < column && cur.at? '\t' then none
      else
        let gap :=
          if gap.first.isSome then gap else { gap with blanks := gap.blanks ++ cur.rest.take 1 }
        take column fuel gap (cur.skip 1)
    else if cur.atBreak then
      let (line, next) := cur.takeBreak
      let gap :=
        match gap.first with
        | none => { gap with blanks := [], first := some line }
        | some _ => { gap with more := gap.more ++ line }
      take column fuel gap next
    else some (gap, cur)

end Gap

end TaggedRows.Configuration
