import Mathlib.Logic.Relation
import TaggedRows.ColumnTag
import TaggedRows.Proofs.Tag.Joining

/-!
# Changes of a tag that its meaning does not show

The meaning of a tag is five lookups, each of which goes by the first pair with its name.

- **Edits** (`Edit`): a pair with an unknown name more, the pairs in another order, a further pair
  of a name that is there. Each keeps the first pair of every known name (`Edit.find?_eq`), so any
  number of them does (`find?_eq_of_edits`).
- **Meaning** (`ofTag_of_edits`): tags that differ in edits, and in the spaces between their pairs,
  mean the same.
-/

namespace TaggedRows.Tag

/-- The names that the meaning of a field is read from. -/
def knownNames : List String := ["sql", "table", "key", "audit", "update"]

/-- What a tag means depends only on the lookups of the known names. -/
theorem ofTag_congr {tag tag' : String}
    (h : ∀ name ∈ knownNames, lookup tag' name = lookup tag name) :
    ColumnTag.ofTag tag' = ColumnTag.ofTag tag := by
  simp only [knownNames, List.forall_mem_cons] at h
  obtain ⟨hsql, htable, hkey, haudit, hupdate, -⟩ := h
  simp only [ColumnTag.ofTag, hsql, htable, hkey, haudit, hupdate]

/-! ## Edits -/

/-- One change of the pairs of a tag. -/
inductive Edit : List Pair → List Pair → Prop
  /-- A pair with an unknown name, whatever its value. -/
  | insert {before after : List Pair} {p : Pair} (h : ∀ name ∈ knownNames, p.name ≠ name.toList) :
    Edit (before ++ after) (before ++ p :: after)
  /-- Another order of the pairs; those of one name keep theirs. -/
  | permute {ps qs : List Pair} (h : ps.Perm qs)
    (hsame : ∀ name, ps.filter (·.name = name) = qs.filter (·.name = name)) : Edit ps qs
  /-- A further pair, somewhere behind one with the same name. -/
  | again {before between after : List Pair} {p q : Pair} (h : q.name = p.name) :
    Edit (before ++ p :: (between ++ after)) (before ++ p :: (between ++ q :: after))

section

variable {ps qs : List Pair} {name : String}

/-- The first pair with a known name is the same. -/
theorem Edit.find?_eq (h : Edit ps qs) (hname : name ∈ knownNames) :
    qs.find? (·.name = name.toList) = ps.find? (·.name = name.toList) := by
  cases h with
  | insert h => simp [List.find?_append, h name hname]
  | permute _ hsame => rw [← List.head?_filter, ← hsame, List.head?_filter]
  | @again before between after p q h =>
    by_cases hp : p.name = name.toList
    · simp [List.find?_append, hp]
    · have hq : q.name ≠ name.toList := h ▸ hp
      simp [List.find?_append, hp, hq]

/-- Neighbours with different names change places. -/
theorem Edit.swap {p q : Pair} (h : p.name ≠ q.name) (before after : List Pair) :
    Edit (before ++ p :: q :: after) (before ++ q :: p :: after) := by
  refine .permute ((List.Perm.swap q p after).append_left before) fun name => ?_
  by_cases hp : p.name = name
  · have hq : q.name ≠ name := fun hq => h (hp.trans hq.symm)
    simp [hp, hq]
  · simp [List.filter_cons, hp]

theorem find?_eq_of_edits (h : Relation.ReflTransGen Edit ps qs) (hname : name ∈ knownNames) :
    qs.find? (·.name = name.toList) = ps.find? (·.name = name.toList) := by
  induction h with
  | refl => rfl
  | tail _ hedit ih => exact (hedit.find?_eq hname).trans ih

end

/-! ## Meaning -/

/-- Well-formed tags with pairs that are edits of each other's mean the same, whatever spaces stand
between the pairs. -/
theorem ofTag_of_edits {tag tag' : String} {ps qs : List Pair} (htag : ConsistsOf tag.toList ps)
    (htag' : ConsistsOf tag'.toList qs) (h : Relation.ReflTransGen Edit ps qs) :
    ColumnTag.ofTag tag' = ColumnTag.ofTag tag := by
  refine ofTag_congr fun name hname => lookup_congr ?_
  rw [htag.pairs_eq, htag'.pairs_eq]
  exact find?_eq_of_edits h hname

/-- The key goes first, a second column is named behind the first one, and between them stands an
unknown name; its value is not decoded and looks like a pair. -/
theorem ofTag_of_edits_note :
    ColumnTag.ofTag "key:\"t\"  x:\"\\x sql:\\\"\"sql:\"a\" sql:\"b\" " =
      ColumnTag.ofTag "sql:\"a\" key:\"t\"" := by
  have htag : ConsistsOf "sql:\"a\" key:\"t\"".toList
      [⟨"sql".toList, ['a']⟩, ⟨"key".toList, ['t']⟩] :=
    consistsOf_of_spaced [(0, _), (1, _)] 0 (by decide +kernel) (by decide +kernel)
  have htag' : ConsistsOf "key:\"t\"  x:\"\\x sql:\\\"\"sql:\"a\" sql:\"b\" ".toList
      [⟨"key".toList, ['t']⟩, ⟨['x'], "\\x sql:\\\"".toList⟩, ⟨"sql".toList, ['a']⟩,
        ⟨"sql".toList, ['b']⟩] :=
    consistsOf_of_spaced [(0, _), (2, _), (0, _), (1, _)] 1 (by decide +kernel) (by decide +kernel)
  have hswap : Edit [⟨"sql".toList, ['a']⟩, ⟨"key".toList, ['t']⟩]
      [⟨"key".toList, ['t']⟩, ⟨"sql".toList, ['a']⟩] := .swap (by decide) [] []
  have hunknown : Edit ([⟨"key".toList, ['t']⟩] ++ [⟨"sql".toList, ['a']⟩])
      ([⟨"key".toList, ['t']⟩] ++ ⟨['x'], "\\x sql:\\\"".toList⟩ :: [⟨"sql".toList, ['a']⟩]) :=
    .insert (by decide)
  have hagain : Edit
      ([⟨"key".toList, ['t']⟩, ⟨['x'], "\\x sql:\\\"".toList⟩] ++
        ⟨"sql".toList, ['a']⟩ :: ([] ++ []))
      ([⟨"key".toList, ['t']⟩, ⟨['x'], "\\x sql:\\\"".toList⟩] ++
        ⟨"sql".toList, ['a']⟩ :: ([] ++ [⟨"sql".toList, ['b']⟩])) :=
    .again rfl
  exact ofTag_of_edits htag htag' (.tail (.tail (.single hswap) hunknown) hagain)

end TaggedRows.Tag
