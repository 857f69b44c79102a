import TaggedRows.Text.CodeSet

/-!
# White space

The Unicode property `White_Space`, trimming by it, and the shape of a trimmed text.
-/

namespace TaggedRows.Text

/-- Boundaries of `White_Space`. -/
def whiteSpaceBounds : List Nat :=
  [9, 0xe, 0x20, 0x21, 0x85, 0x86, 0xa0, 0xa1, 0x1680, 0x1681, 0x2000, 0x200b, 0x2028, 0x202a,
   0x202f, 0x2030, 0x205f, 0x2060, 0x3000, 0x3001]

/-- White space in the sense of Unicode. -/
def isBlank (c : Char) : Bool :=
  charIn whiteSpaceBounds c

/-- The text without the white space at its start. -/
def trimStart (cs : List Char) : List Char :=
  cs.dropWhile isBlank

/-- The text without the white space at its end. -/
def trimEnd (cs : List Char) : List Char :=
  (cs.reverse.dropWhile isBlank).reverse

/-- The text without the white space around it. -/
def trim (cs : List Char) : List Char :=
  trimEnd (trimStart cs)

end TaggedRows.Text
