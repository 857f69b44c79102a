import TaggedRows.Text.Split

/-!
# Splitting and joining

* `pieces_eq_splitOn`: the pieces of a text are those of `List.splitOn`.
* `pieces_append` and `pieces_of_notMem`: a text comes apart at a separator, and only there.
* `length_pieces` and `count_intercalate`: there is one more piece than there are separators, and
  joining adds one separator between every two parts. So a joined text comes apart into as many
  pieces as it has parts only if no part holds a separator.
* `piecesOf_intercalate`: and then the pieces are the parts.
* `intercalate_map_append_pieces`: what is put behind every piece stands before every separator.
-/

namespace TaggedRows.Text

/-- The pieces are those of the library's splitting of lists. -/
theorem pieces_eq_splitOn (sep : Char) (cs : List Char) : pieces sep cs = cs.splitOn sep := by
  induction cs with
  | nil => rfl
  | cons c cs ih =>
    rw [List.splitOn_cons_eq_if_modifyHead, ← ih, pieces]
    split
    · next h => exact absurd h (pieces_ne_nil sep cs)
    · next piece rest h =>
      by_cases hc : c = sep
      · subst hc; simp [h]
      · rw [h]; simp [hc]

theorem pieces_cons (sep c : Char) (cs : List Char) : ∃ piece rest, pieces sep cs = piece :: rest ∧
    pieces sep (c :: cs) = if c = sep then [] :: piece :: rest else (c :: piece) :: rest := by
  obtain ⟨piece, rest, h⟩ := List.exists_cons_of_ne_nil (pieces_ne_nil sep cs)
  exact ⟨piece, rest, h, by rw [pieces, h]⟩

/-- Both sides of a separator are split apart. -/
theorem pieces_append {sep : Char} (as bs : List Char) :
    pieces sep (as ++ sep :: bs) = pieces sep as ++ pieces sep bs := by
  induction as with
  | nil =>
    obtain ⟨piece, rest, h, hc⟩ := pieces_cons sep sep bs
    rw [List.nil_append, hc, if_pos rfl, ← h]
    rfl
  | cons a as ih =>
    obtain ⟨piece, rest, h, hc⟩ := pieces_cons sep a (as ++ sep :: bs)
    obtain ⟨piece', rest', h', hc'⟩ := pieces_cons sep a as
    rw [ih, h', List.cons_append] at h
    obtain ⟨rfl, rfl⟩ := List.cons.inj h
    rw [List.cons_append, hc, hc']
    split <;> rfl

theorem pieces_of_notMem {sep : Char} {cs : List Char} (h : sep ∉ cs) : pieces sep cs = [cs] := by
  induction cs with
  | nil => rfl
  | cons c cs ih =>
    have hne : c ≠ sep := fun he => h (by simp [he])
    rw [pieces, ih fun hm => h (List.mem_cons_of_mem c hm)]
    exact if_neg hne

theorem notMem_of_mem_pieces {sep : Char} {cs piece : List Char}
    (h : piece ∈ pieces sep cs) : sep ∉ piece := by
  induction cs generalizing piece with
  | nil =>
    rw [pieces, List.mem_singleton] at h
    simp [h]
  | cons c cs ih =>
    obtain ⟨first, rest, hcs, hc⟩ := pieces_cons sep c cs
    rw [hcs] at ih
    rw [hc] at h
    split at h
    · rcases List.mem_cons.mp h with rfl | h
      · exact List.not_mem_nil
      · exact ih h
    · next hne =>
      rcases List.mem_cons.mp h with rfl | h
      · exact List.not_mem_cons_of_ne_of_not_mem (Ne.symm hne) (ih List.mem_cons_self)
      · exact ih (List.mem_cons_of_mem first h)

/-- There is one more piece than there are separators. -/
theorem length_pieces (sep : Char) (cs : List Char) :
    (pieces sep cs).length = cs.count sep + 1 := by
  induction cs with
  | nil => rfl
  | cons c cs ih =>
    rw [pieces]
    split
    · next h => exact absurd h (pieces_ne_nil sep cs)
    · next piece rest h =>
      rw [h] at ih
      by_cases hc : c = sep
      · subst hc; simp at ih ⊢; omega
      · simp [hc] at ih ⊢; omega

/-- The separators in a joined text are those between the parts and those within. -/
theorem count_intercalate (sep : Char) (x : List Char) (xs : List (List Char)) :
    ([sep].intercalate (x :: xs)).count sep = xs.length + (x :: xs).flatten.count sep := by
  induction xs generalizing x with
  | nil => simp
  | cons y ys ih =>
    rw [List.intercalate_cons_cons, List.count_append, List.count_append, ih]
    simp
    omega

/-- What is put behind every piece stands before every separator, and at the end. -/
theorem intercalate_map_append_pieces (sep : Char) (suffix cs : List Char) :
    [sep].intercalate ((pieces sep cs).map (· ++ suffix)) =
      (cs.flatMap fun c => if c = sep then suffix ++ [sep] else [c]) ++ suffix := by
  induction cs with
  | nil => simp [pieces]
  | cons c cs ih =>
    obtain ⟨piece, rest, hp, hc⟩ := pieces_cons sep c cs
    rw [hp, List.map_cons] at ih
    rw [hc, List.flatMap_cons, List.append_assoc, ← ih]
    split
    · rw [List.map_cons, List.map_cons, List.intercalate_cons_cons]
      simp
    · cases rest with
      | nil => simp
      | cons next rest =>
        rw [List.map_cons, List.map_cons, List.intercalate_cons_cons, List.intercalate_cons_cons]
        simp

/-- Joined parts without separators come apart again. -/
theorem piecesOf_intercalate (sep : Char) (parts : List String) (hp : parts ≠ [])
    (hs : ∀ p ∈ parts, sep ∉ p.toList) :
    piecesOf sep ((String.singleton sep).intercalate parts) = parts := by
  have hm : parts.map String.toList ≠ [] := by simpa using hp
  have hsep : ∀ l ∈ parts.map String.toList, sep ∉ l := by
    intro l hl
    obtain ⟨p, hp, rfl⟩ := List.mem_map.1 hl
    exact hs p hp
  rw [piecesOf, pieces_eq_splitOn, String.toList_intercalate, String.toList_singleton,
    List.splitOn_intercalate _ hsep hm, List.map_map]
  simp [Function.comp_def]

end TaggedRows.Text
