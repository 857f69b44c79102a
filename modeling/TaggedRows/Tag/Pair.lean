import TaggedRows.Tag.Escape

/-!
# The pairs of a tag

A tag is a sequence of pairs `name:"body"`, each after any number of spaces. A name is not empty and
has no control character, space, colon, quote or `U+007F`. A body ends at the first quote that no
backslash consumes; a backslash always consumes the character after it.

`lookup` reads the pairs in order and stops at the first one with the wanted name, or where no
further pair begins: what stands before a malformed place stays visible, and nothing after it is.
-/

namespace TaggedRows.Tag

/-- A character that names consist of. -/
def isNameChar (c : Char) : Bool :=
  ' ' < c && c != ':' && c != '"' && c != '\x7f'

/-- Splits a text that begins after an opening quote at the closing quote: the body before it and
what follows it. -/
def splitQuoted : List Char → Option (List Char × List Char)
  | [] => none
  | c :: cs =>
    if c = '"' then some ([], cs)
    else if c = '\\' then
      match cs with
      | [] => none
      | d :: cs => (splitQuoted cs).map fun (body, rest) => (c :: d :: body, rest)
    else (splitQuoted cs).map fun (body, rest) => (c :: body, rest)

/-- A name with the undecoded body of its value. -/
structure Pair where
  name : List Char
  body : List Char
  deriving DecidableEq, Repr

/-- The pair that a text begins with, after spaces, and what follows it. -/
def pair? (cs : List Char) : Option (Pair × List Char) :=
  let cs := cs.dropWhile (· == ' ')
  let name := cs.takeWhile isNameChar
  if name.isEmpty then none
  else match cs.dropWhile isNameChar with
    | ':' :: '"' :: cs => (splitQuoted cs).map fun (body, rest) => (⟨name, body⟩, rest)
    | _ => none

/-- Body, quote and rest are the text that was split. -/
theorem append_of_splitQuoted {cs body rest : List Char}
    (h : splitQuoted cs = some (body, rest)) : body ++ '"' :: rest = cs := by
  fun_induction splitQuoted cs generalizing body rest with
  | case1 => simp at h
  | case2 cs =>
    simp only [Option.some.injEq, Prod.mk.injEq] at h
    simp [← h.1, ← h.2]
  | case3 => simp at h
  | case4 cs d _ ih =>
    simp only [Option.map_eq_some_iff, Prod.mk.injEq] at h
    obtain ⟨⟨b, r⟩, hs, rfl, rfl⟩ := h
    simp [ih hs]
  | case5 c cs hq hb ih =>
    simp only [Option.map_eq_some_iff, Prod.mk.injEq] at h
    obtain ⟨⟨b, r⟩, hs, rfl, rfl⟩ := h
    simp [ih hs]

/-- A pair takes at least one character. -/
theorem length_of_pair? {cs rest : List Char} {p : Pair} (h : pair? cs = some (p, rest)) :
    rest.length < cs.length := by
  simp only [pair?] at h
  split at h
  · simp at h
  split at h
  · next tail heq =>
    simp only [Option.map_eq_some_iff, Prod.mk.injEq] at h
    obtain ⟨⟨body, r⟩, hs, -, rfl⟩ := h
    have hr : body.length + (r.length + 1) = tail.length := by
      have := congrArg List.length (append_of_splitQuoted hs)
      simpa using this
    have h1 : tail.length + 2 ≤ (cs.dropWhile (· == ' ')).length := by
      have := (List.dropWhile_suffix isNameChar (l := cs.dropWhile (· == ' '))).length_le
      rw [heq] at this
      exact this
    have h2 := (List.dropWhile_suffix (· == ' ') (l := cs)).length_le
    simp only
    omega
  · simp at h

/-- All pairs of a tag up to its end or its first malformed place. -/
def pairs (cs : List Char) : List Pair :=
  match _h : pair? cs with
  | none => []
  | some (p, rest) => p :: pairs rest
termination_by cs.length
decreasing_by exact length_of_pair? ‹_›

/-- The decoded value of the first pair with the given name. -/
def value? (name : List Char) (cs : List Char) : Option (List Char) :=
  match _h : pair? cs with
  | none => none
  | some (p, rest) => if p.name = name then unquote p.body else value? name rest
termination_by cs.length
decreasing_by exact length_of_pair? ‹_›

/-- The value stored under `key` in a tag. -/
def lookup (tag key : String) : Option String :=
  (value? key.toList tag.toList).map String.ofList

end TaggedRows.Tag
