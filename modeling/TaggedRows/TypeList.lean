import TaggedRows.Text.Blank
import TaggedRows.Text.Split

/-!
# Lists of type names

A list of requested type names is kept in a normal form: every name trimmed, none empty, and each
at its first occurrence only.
-/

namespace TaggedRows.TypeList

/-- Keeps the first occurrence of every element. -/
def firstOccurrences : List (List Char) → List (List Char)
  | [] => []
  | x :: xs => x :: (firstOccurrences xs).filter (· ≠ x)

/-- Trims the names and drops the empty and the repeated ones. -/
def normalize (names : List (List Char)) : List (List Char) :=
  firstOccurrences ((names.map Text.trim).filter (!·.isEmpty))

/-- The normal form of a list of names. -/
def ofNames (names : List String) : List String :=
  (normalize (names.map String.toList)).map String.ofList

/-- The names in a comma-separated list. -/
def parse (list : String) : List String :=
  (normalize (Text.pieces ',' list.toList)).map String.ofList

end TaggedRows.TypeList
