/-!
# Splitting at a character

`Text.pieces sep cs` gives the pieces of a text between the occurrences of a separator. There is
always one more piece than there are separators, and joining the pieces gives the text back.
-/

namespace TaggedRows.Text

/-- The pieces between the separators. -/
def pieces (sep : Char) : List Char → List (List Char)
  | [] => [[]]
  | c :: cs =>
    match pieces sep cs with
    | [] => [[c]]
    | piece :: rest => if c = sep then [] :: piece :: rest else (c :: piece) :: rest

/-- Pieces with the separator between them. -/
def joinPieces (sep : Char) : List (List Char) → List Char
  | [] => []
  | [piece] => piece
  | piece :: next :: rest => piece ++ sep :: joinPieces sep (next :: rest)

/-- The pieces of a text as texts. -/
def piecesOf (sep : Char) (text : String) : List String :=
  (pieces sep text.toList).map String.ofList

theorem pieces_ne_nil (sep : Char) (cs : List Char) : pieces sep cs ≠ [] := by
  cases cs with
  | nil => simp [pieces]
  | cons c cs =>
    simp only [pieces]
    split <;> (try split) <;> simp

/-- Splitting loses nothing. -/
theorem joinPieces_pieces (sep : Char) (cs : List Char) : joinPieces sep (pieces sep cs) = cs := by
  induction cs with
  | nil => rfl
  | cons c cs ih =>
    rw [pieces]
    split
    · next h => exact absurd h (pieces_ne_nil sep cs)
    · next piece rest h =>
      rw [h] at ih
      split
      · next hc => subst hc; simp [joinPieces, ih]
      · cases rest <;> simp_all [joinPieces]

end TaggedRows.Text
