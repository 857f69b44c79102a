/-!
# Layouts

A layout is text with places where a line may end, put into nested boxes. A box that fits on the
rest of its line stays on it. A box that does not is *broken*: a consistent one ends the line at all
of its breaks, a flowing one only where what follows would not fit. What has to fit is measured up
to the next break of the same box or, behind the last one, of the boxes around it (`reach`).

Widths are counted in bytes of the text's encoding.
-/

namespace TaggedRows

/-- When a break ends its line. -/
inductive BreakKind where
  /-- In a broken box, as the box demands. -/
  | soft
  /-- Always: nothing with this break in it fits. -/
  | hard
  /-- Never; what is before it is still measured up to here only. -/
  | never
  deriving DecidableEq, Repr

structure Break where
  kind : BreakKind
  /-- The number of spaces where the line goes on. -/
  blanks : Nat
  /-- Written where the line ends. -/
  before : List Char
  /-- Added to the indent of the next line. -/
  offset : Int
  deriving DecidableEq, Repr

/-- How a broken box treats its breaks. -/
inductive BoxKind where
  /-- Every break ends the line. -/
  | consistent
  /-- A break ends the line where the part up to the next one does not fit. -/
  | flowing
  deriving DecidableEq, Repr

/-- A sequence of texts, breaks and boxes. -/
inductive Layout where
  | nil
  | text (s : List Char) (rest : Layout)
  | brk (b : Break) (rest : Layout)
  | box (indent : Int) (kind : BoxKind) (body rest : Layout)
  deriving Repr

namespace Layout

/-- The number of columns that lines aim at. -/
def margin : Int := 89

/-- The room on a line, however far it is indented. -/
def minRoom : Int := 60

/-- Wider than any line. -/
def unbounded : Nat := 65535

/-- The number of bytes of a text. -/
def textWidth (s : List Char) : Nat := (String.ofList s).utf8ByteSize

def breakWidth (b : Break) : Nat :=
  if b.kind = .hard then unbounded else b.blanks

/-- The width on one line. -/
def width : Layout → Nat
  | nil => 0
  | text s rest => textWidth s + rest.width
  | brk b rest => breakWidth b + rest.width
  | box _ _ body rest => body.width + rest.width

/-- The width up to the first break outside of inner boxes; `after` is what follows the layout. -/
def reach (after : Nat) : Layout → Nat
  | nil => after
  | text s rest => textWidth s + rest.reach after
  | brk _ _ => 0
  | box _ _ body rest => body.width + rest.reach after

/-! ## Rendering -/

/-- How the box around treats breaks: on one line, or broken. -/
inductive Mode where
  | flat
  | broken (kind : BoxKind)
  deriving DecidableEq, Repr

/-- What has been written. -/
structure Page where
  indent : Int
  /-- The room left on the line. -/
  room : Int
  /-- Spaces to write before the next text. -/
  pending : Nat
  /-- The text, last character first. -/
  written : List Char

namespace Page

def empty : Page := ⟨0, margin, 0, []⟩

/-- Writes the pending spaces and a text. -/
def put (page : Page) (s : List Char) : Page :=
  { page with
    pending := 0
    room := page.room - textWidth s
    written := s.reverse ++ (List.replicate page.pending ' ' ++ page.written) }

/-- Goes on with the line. -/
def skip (page : Page) (blanks : Nat) : Page :=
  { page with pending := page.pending + blanks, room := page.room - blanks }

/-- Ends the line. Spaces at its end are not written. -/
def endLine (page : Page) (b : Break) : Page :=
  let indent := page.indent + b.offset
  let page := if b.before = [] then page else page.put b.before
  { page with
    pending := indent.toNat
    room := max (margin - indent) minRoom
    written := '\n' :: page.written }

end Page

/-- The line goes on at a break; `next` is the width that has to fit then. -/
def goesOn (mode : Mode) (b : Break) (next : Nat) (room : Int) : Bool :=
  b.kind = .never ||
    match mode with
    | .flat => true
    | .broken .consistent => false
    | .broken .flowing => breakWidth b + next ≤ room

/-- Writes a layout; `after` is the width of what follows it up to the next break. -/
def renderOn (mode : Mode) (after : Nat) : Layout → Page → Page
  | nil, page => page
  | text s rest, page => rest.renderOn mode after (page.put s)
  | brk b rest, page =>
    rest.renderOn mode after
      (if goesOn mode b (rest.reach after) page.room then page.skip b.blanks else page.endLine b)
  | box indent kind body rest, page =>
    let next := rest.reach after
    if body.width + next ≤ page.room then
      rest.renderOn mode after (body.renderOn .flat next page)
    else
      let inner := body.renderOn (.broken kind) next { page with indent := page.indent + indent }
      rest.renderOn mode after { inner with indent := page.indent }

/-- The text of a layout. -/
def render (l : Layout) : String :=
  String.ofList (l.renderOn (.broken .flowing) 0 .empty).written.reverse

/-! ## Building layouts -/

/-- One layout after another. -/
def append : Layout → Layout → Layout
  | nil, l => l
  | text s rest, l => text s (rest.append l)
  | brk b rest, l => brk b (rest.append l)
  | box indent kind body rest, l => box indent kind body (rest.append l)

instance : Append Layout := ⟨append⟩

/-- Layouts one after another. -/
def concat : List Layout → Layout
  | [] => nil
  | l :: ls => l ++ concat ls

def word (s : String) : Layout := text s.toList nil

/-- The indent of what stands between brackets. -/
def step : Int := 4

def consistent (indent : Int) (ls : List Layout) : Layout :=
  box indent .consistent (concat ls) nil

def flowing (indent : Int) (ls : List Layout) : Layout :=
  box indent .flowing (concat ls) nil

/-- A space, or the end of the line. -/
def space : Layout := brk ⟨.soft, 1, [], 0⟩ nil

/-- Nothing, or the end of the line. -/
def cut : Layout := brk ⟨.soft, 0, [], 0⟩ nil

/-- Nothing, or the end of the line with the given offset for the next one. -/
def cutBack (offset : Int) : Layout := brk ⟨.soft, 0, [], offset⟩ nil

/-- Nothing, or a comma and the end of the line. -/
def lastComma (offset : Int) : Layout := brk ⟨.soft, 0, [','], offset⟩ nil

/-- A place up to which is measured. -/
def seam : Layout := brk ⟨.never, 0, [], 0⟩ nil

def newline (offset : Int) : Layout := brk ⟨.hard, 0, [], offset⟩ nil

/-- Items with commas between them, one a line where they do not fit on one; the last then has a
comma as well. -/
def commaItems : List Layout → Layout
  | [] => nil
  | [l] => l ++ lastComma (-step)
  | l :: ls => l ++ word "," ++ space ++ commaItems ls

/-- Items between brackets. -/
def bracketed (opening closing : String) (items : List Layout) : Layout :=
  word opening ++
    (if items.isEmpty then nil else consistent step [cut, commaItems items]) ++ word closing

end Layout

end TaggedRows
