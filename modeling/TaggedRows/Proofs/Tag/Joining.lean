import Mathlib.Data.List.TakeWhile
import TaggedRows.Proofs.RowMapping.Description
import TaggedRows.Proofs.Tag.Spelling

/-!
# Tags that are joined

A tag may come from several texts, put one behind the other. What a lookup finds in the whole is
what it finds in the first text that has the name, as long as no text leaves a value open.

- **Well-formed tags** (`ConsistsOf`, `IsWellFormed`): pairs and spaces up to the end. The pairs of
  the tag come before those of what follows it (`ConsistsOf.pairs_append`).
- **Names** (`Names`): the names that a tag shows, up to its first malformed place.
- **Malformed places** (`StopsMalformed`): a reading that stops at a place which is not a value
  without its closing quote stops there as well when a space and more text follow
  (`pair?_append_space`).
- **Joins** (`tagOfField_composes`): the tag of a field, made of its tag attributes.
-/

namespace TaggedRows.Tag

open Source

/-! ## Well-formed tags -/

section

variable {text rest cs : List Char} {ps qs : List Pair} {p : Pair}

instance (body : List Char) : Decidable (IsBody body) :=
  decidable_of_iff (splitQuoted (body ++ ['"']) = some (body, [])) (by simp [splitQuoted_eq_some])

instance (p : Pair) : Decidable p.IsLegal :=
  decidable_of_iff (IsName p.name ∧ IsBody p.body)
    ⟨fun ⟨h, h'⟩ => ⟨h, h'⟩, fun h => ⟨h.name, h.body⟩⟩

/-- The text consists of the pairs, with any number of spaces before each of them and at the end. -/
def ConsistsOf (text : List Char) (ps : List Pair) : Prop :=
  ∃ taken n, Sequence ps taken ∧ text = taken ++ List.replicate n ' '

/-- The tag consists of pairs up to its end. -/
def IsWellFormed (tag : String) : Prop := ∃ ps, ConsistsOf tag.toList ps

theorem consistsOf_spaces (n : Nat) : ConsistsOf (List.replicate n ' ') [] := ⟨[], n, .nil, rfl⟩

theorem ConsistsOf.cons (hp : p.IsLegal) (n : Nat) (h : ConsistsOf text ps) :
    ConsistsOf (List.replicate n ' ' ++ p.text ++ text) (p :: ps) := by
  obtain ⟨taken, m, hs, rfl⟩ := h
  exact ⟨_, m, hs.cons n hp, by simp⟩

/-- Legal pairs with any numbers of spaces before them and at the end. -/
theorem consistsOf_of_spaced (spaced : List (Nat × Pair)) (n : Nat)
    (h : ∀ p ∈ spaced, p.2.IsLegal)
    (ht : text = (spaced.flatMap fun p => List.replicate p.1 ' ' ++ p.2.text) ++
      List.replicate n ' ') : ConsistsOf text (spaced.map Prod.snd) := by
  subst ht
  induction spaced with
  | nil => exact consistsOf_spaces n
  | cons p spaced ih =>
    obtain ⟨hp, hspaced⟩ := List.forall_mem_cons.mp h
    rw [List.flatMap_cons, List.append_assoc]
    exact .cons hp p.1 (ih hspaced)

theorem pair?_spaces_append (n : Nat) (cs : List Char) :
    pair? (List.replicate n ' ' ++ cs) = pair? cs := by
  have hdrop : (List.replicate n ' ' ++ cs).dropWhile (· == ' ') = cs.dropWhile (· == ' ') :=
    List.dropWhile_append_of_pos (by simp [List.mem_replicate])
  simp only [pair?, hdrop]

theorem pairs_congr {ds : List Char} (h : pair? cs = pair? ds) : pairs cs = pairs ds := by
  cases hd : pair? ds with
  | none => rw [pairs_of_none hd, pairs_of_none (h.trans hd)]
  | some found => rw [pairs_of_pair? hd, pairs_of_pair? (h.trans hd)]

theorem pairs_spaces_append (n : Nat) (cs : List Char) :
    pairs (List.replicate n ' ' ++ cs) = pairs cs :=
  pairs_congr (pair?_spaces_append n cs)

/-- The pairs of a well-formed text come before those of what follows it, with spaces or without. -/
theorem ConsistsOf.pairs_append (h : ConsistsOf text ps) (rest : List Char) :
    pairs (text ++ rest) = ps ++ pairs rest := by
  obtain ⟨taken, n, hs, rfl⟩ := h
  rw [List.append_assoc, hs.pairs_append, pairs_spaces_append]

theorem ConsistsOf.pairs_eq (h : ConsistsOf text ps) : pairs text = ps := by
  have hnil : pairs [] = [] := pairs_of_none (pair?_spaces 0)
  simpa [hnil] using h.pairs_append []

end

/-! ## Names -/

section

variable {tag key : String}

/-- A pair of the longest sequence of pairs that the tag begins with has the name. -/
def Names (tag key : String) : Prop :=
  ∃ taken ps, IsLongest tag.toList taken ps ∧ ∃ p ∈ ps, p.name = key.toList

theorem names_iff : Names tag key ↔ ∃ p ∈ pairs tag.toList, p.name = key.toList := by
  constructor
  · rintro ⟨taken, ps, h, p, hp, hname⟩
    exact ⟨p, h.pairs_eq ▸ hp, hname⟩
  · obtain ⟨taken, h⟩ := exists_isLongest tag.toList
    exact fun hp => ⟨taken, _, h, hp⟩

theorem names_of_pair? {p : Pair} {rest : List Char} (h : pair? tag.toList = some (p, rest))
    (hp : p.name = key.toList) : Names tag key :=
  names_iff.mpr ⟨p, by rw [pairs_of_pair? h]; exact List.mem_cons_self, hp⟩

theorem find?_eq_none_of_not_names (h : ¬ Names tag key) :
    (pairs tag.toList).find? (·.name = key.toList) = none := by
  rw [names_iff] at h
  simpa using h

theorem isSome_find?_of_names (h : Names tag key) :
    ((pairs tag.toList).find? (·.name = key.toList)).isSome := by
  simpa using names_iff.mp h

/-- A lookup depends only on the first pair with the name. -/
theorem lookup_congr {tag' : String} (h : (pairs tag.toList).find? (·.name = key.toList) =
    (pairs tag'.toList).find? (·.name = key.toList)) : lookup tag key = lookup tag' key := by
  simp only [lookup, value?_eq_firstValue?, firstValue?, h]

theorem lookup_of_not_names (h : ¬ Names tag key) : lookup tag key = none := by
  rw [lookup, value?_eq_firstValue?, firstValue?, find?_eq_none_of_not_names h]
  rfl

/-- More text behind a name that a tag has does not change what is found. -/
theorem lookup_append_of_names (h : Names tag key) (more : String) :
    lookup (tag ++ more) key = lookup tag key := by
  refine lookup_congr ?_
  obtain ⟨taken, hlongest⟩ := exists_isLongest tag.toList
  obtain ⟨hs, rest, htag, -⟩ := isLongest_iff.mp hlongest
  rw [String.toList_append, htag, List.append_assoc, hs.pairs_append, List.find?_append, ← htag,
    Option.or_of_isSome (isSome_find?_of_names h)]

end

/-! ## Malformed places -/

section

variable {rest : List Char}

/-- A name, a colon and a quote, with no quote behind them that ends a body. -/
def IsUnterminated (rest : List Char) : Prop :=
  ∃ n name tail, rest = List.replicate n ' ' ++ (name ++ ':' :: '"' :: tail) ∧ IsName name ∧
    ∀ body more, IsBody body → tail ≠ body ++ '"' :: more

/-- Behind the longest sequence of pairs of the tag there is more than spaces, and it is not a value
without its closing quote. -/
def StopsMalformed (tag : String) : Prop :=
  ∃ taken ps rest, IsLongest tag.toList taken ps ∧ tag.toList = taken ++ rest ∧
    (∃ c ∈ rest, c ≠ ' ') ∧ ¬ IsUnterminated rest

/-- In spaces, a name, a colon and a quote there is no space behind another character. -/
theorem not_space_of_name {name before after : List Char} {n : Nat} (h : IsName name)
    (he : List.replicate n ' ' ++ (name ++ [':', '"']) = before ++ ' ' :: after) :
    ∀ c ∈ before, c = ' ' := by
  by_contra hne
  have hdrop := congrArg (List.dropWhile (· == ' ')) he
  have hrest : before.dropWhile (· == ' ') ≠ [] := by
    rw [ne_eq, List.dropWhile_eq_nil_iff]
    simpa using hne
  rw [dropWhile_spaces h, List.dropWhile_append, if_neg (by simpa using hrest)] at hdrop
  have hmem : ' ' ∈ name ++ [':', '"'] := by simp [hdrop]
  have hname : ' ' ∈ name := by simpa using hmem
  exact h.chars ' ' hname (.inl (by decide))

/-- Where no pair begins and no value is left open, none begins with a space and more text behind
it. -/
theorem pair?_append_space (h : pair? rest = none) (hrest : ∃ c ∈ rest, c ≠ ' ')
    (hopen : ¬ IsUnterminated rest) (more : List Char) : pair? (rest ++ ' ' :: more) = none := by
  rw [Option.eq_none_iff_forall_ne_some]
  rintro ⟨p, last⟩ hp
  obtain ⟨hlegal, n, he⟩ := pair?_eq_some.mp hp
  have he : List.replicate n ' ' ++ (p.name ++ [':', '"']) ++ (p.body ++ '"' :: last) =
      rest ++ ' ' :: more := by simp [he, Pair.text]
  -- The text ends before the opening quote of the pair or behind it.
  rcases List.append_eq_append_iff.mp he with ⟨tail, rfl, -⟩ | ⟨between, hrest', hmore⟩
  · refine hopen ⟨n, p.name, tail, by simp, hlegal.name, ?_⟩
    rintro body last' hbody rfl
    have hread := pair?_append (p := ⟨p.name, body⟩) ⟨hlegal.name, hbody⟩ n last'
    rw [Pair.text] at hread
    simp_all
  · cases between with
    | nil =>
      refine hopen ⟨n, p.name, [], by simpa using hrest'.symm, hlegal.name, ?_⟩
      simp
    | cons c between =>
      obtain rfl : ' ' = c := (List.cons.inj hmore).1
      obtain ⟨c, hc, hne⟩ := hrest
      exact hne (not_space_of_name hlegal.name hrest' c hc)

/-- Nothing behind a malformed place is found. -/
theorem lookup_append_of_stopsMalformed {tag : String} (h : StopsMalformed tag)
    (more key : String) : lookup (tag ++ " " ++ more) key = lookup tag key := by
  refine lookup_congr (congrArg _ ?_)
  obtain ⟨taken, ps, rest, hlongest, htag, hrest, hopen⟩ := h
  obtain ⟨hs, rest', htag', hn⟩ := isLongest_iff.mp hlongest
  obtain rfl : rest = rest' := List.append_cancel_left (htag.symm.trans htag')
  have hspace : (tag ++ " " ++ more).toList = taken ++ (rest ++ ' ' :: more.toList) := by
    simp [htag]
  rw [hspace, hs.pairs_append, pairs_of_none (pair?_append_space hn hrest hopen _), List.append_nil,
    hlongest.pairs_eq]

end

/-! ## Joins -/

section

variable {ts : List String}

theorem not_isFaulty_of_reads {a : Attribute} {t : String} (h : a.Reads (.ok t)) :
    ¬ a.IsFaulty := by
  rintro ⟨fault, hfault⟩
  simpa [tagOfAttribute?_of_reads h] using tagOfAttribute?_of_reads hfault

/-- A join of well-formed tags has the pairs of all of them, in order. -/
theorem pairs_intercalate (h : ∀ t ∈ ts, IsWellFormed t) :
    pairs (" ".intercalate ts).toList = ts.flatMap fun t => pairs t.toList := by
  induction ts with
  | nil => exact pairs_of_none (pair?_spaces 0)
  | cons t ts ih =>
    obtain ⟨⟨ps, ht⟩, hts⟩ := List.forall_mem_cons.mp h
    cases ts with
    | nil => simp
    | cons s ts =>
      have hjoin : (" ".intercalate (t :: s :: ts)).toList =
          t.toList ++ (List.replicate 1 ' ' ++ (" ".intercalate (s :: ts)).toList) := by
        simp [String.intercalate_cons_cons]
      rw [hjoin, ht.pairs_append, pairs_spaces_append, ih hts, ← ht.pairs_eq]
      rfl

/-- What is found for the name is what the first tag that has it says, and nothing if none has. -/
structure IsFirst (ts : List String) (key : String) (found : Option String) : Prop where
  eq_of_names : ∀ before t after, ts = before ++ t :: after → (∀ s ∈ before, ¬ Names s key) →
    Names t key → found = lookup t key
  eq_none : (∀ t ∈ ts, ¬ Names t key) → found = none

theorem isFirst_intercalate (h : ∀ t ∈ ts, IsWellFormed t) (key : String) :
    IsFirst ts key (lookup (" ".intercalate ts) key) := by
  constructor
  · rintro before t after rfl hbefore ht
    refine lookup_congr ?_
    have hnone : (before.flatMap fun s => pairs s.toList).find? (·.name = key.toList) = none := by
      rw [List.find?_flatMap, List.findSome?_eq_none_iff]
      exact fun s hs => find?_eq_none_of_not_names (hbefore s hs)
    rw [pairs_intercalate h, List.flatMap_append, List.flatMap_cons, List.find?_append, hnone,
      Option.none_or, List.find?_append, Option.or_of_isSome (isSome_find?_of_names ht)]
  · intro hnone
    refine lookup_of_not_names ?_
    rw [names_iff, pairs_intercalate h]
    rintro ⟨p, hp, hname⟩
    obtain ⟨t, ht, hpt⟩ := List.mem_flatMap.mp hp
    exact hnone t ht (names_iff.mpr ⟨p, hpt, hname⟩)

/-- The tag of a field is the join of its tag attributes. If they are well-formed, a lookup in it is
that of the first attribute that has the name, also where the value is not decoded. Of any two
texts, the second does not change what is found for a name that the first has; nor does it, a space
apart, change anything if the first stops at a malformed place other than a value without its
closing quote. -/
theorem tagOfField_composes (key : String) :
    (∀ (type : Ident) (f : FieldDecl) (ts : List String), (∀ a ∈ f.attributes, ¬ a.IsFaulty) →
      Picks (fun a t => a.Reads (.ok t)) f.attributes ts → (∀ t ∈ ts, IsWellFormed t) →
      ∃ tag, tagOfField type f = .ok tag ∧ tag = " ".intercalate ts ∧
        IsFirst ts key (lookup tag key)) ∧
    (∀ ts : List String, (∀ t ∈ ts, IsWellFormed t) →
      IsFirst ts key (lookup (" ".intercalate ts) key)) ∧
    (∀ s t : String, Names s key → lookup (s ++ t) key = lookup s key) ∧
    ∀ s t : String, StopsMalformed s → lookup (s ++ " " ++ t) key = lookup s key := by
  refine ⟨fun type f ts hsound hts hwell => ?_, fun ts h => isFirst_intercalate h key,
    fun s t h => lookup_append_of_names h t, fun s t h => lookup_append_of_stopsMalformed h t key⟩
  have hjoins : FieldText.Joins f ⟨f.ident, " ".intercalate ts⟩ := ⟨rfl, hsound, ts, hts, rfl⟩
  exact ⟨_, tagOfField_of_joins hjoins, rfl, isFirst_intercalate hwell key⟩

/-- Two tag attributes: the first has one pair, the value of which is not decoded. -/
def twiceTagged : FieldDecl where
  attributes := ["sql:\"\\x\"", "sql:\"a\" table:\"n\" "].map fun tag =>
    ⟨[.kw "db", .opening .paren, .str tag, .closing .paren]⟩
  ident := .plain "text"
  type := [.kw "String"]

/-- The second attribute names the table, but it does not name the column again; a name without its
colon is not completed by the text that follows it. -/
theorem tagOfField_composes_twiceTagged :
    (∃ tag, tagOfField (.plain "Note") twiceTagged = .ok tag ∧
      lookup tag "sql" = lookup "sql:\"\\x\"" "sql" ∧
      lookup tag "table" = lookup "sql:\"a\" table:\"n\" " "table" ∧ lookup tag "key" = none) ∧
    lookup ("key:\"1\" sql" ++ " " ++ ":\"a\"") "sql" = lookup "key:\"1\" sql" "sql" ∧
    lookup ("key:\"1\" sql:\"" ++ "a\"") "key" = lookup "key:\"1\" sql:\"" "key" := by
  have hfirst : ConsistsOf "sql:\"\\x\"".toList [⟨"sql".toList, ['\\', 'x']⟩] :=
    consistsOf_of_spaced [(0, _)] 0 (by decide) (by decide +kernel)
  have hsecond : ConsistsOf "sql:\"a\" table:\"n\" ".toList
      [⟨"sql".toList, ['a']⟩, ⟨"table".toList, ['n']⟩] :=
    consistsOf_of_spaced [(0, _), (1, _)] 1 (by decide) (by decide +kernel)
  have hkey : pair? "key:\"1\" sql".toList = some (⟨"key".toList, ['1']⟩, " sql".toList) := by
    decide +kernel
  have hopen : pair? "key:\"1\" sql:\"".toList =
      some (⟨"key".toList, ['1']⟩, " sql:\"".toList) := by decide +kernel
  have hfield := fun key => (tagOfField_composes key).1 (.plain "Note") twiceTagged
    ["sql:\"\\x\"", "sql:\"a\" table:\"n\" "]
    (by simpa [twiceTagged] using ⟨not_isFaulty_of_reads ⟨_, rfl, .text rfl⟩,
      not_isFaulty_of_reads ⟨_, rfl, .text rfl⟩⟩)
    (.take ⟨_, rfl, .text rfl⟩ (.take ⟨_, rfl, .text rfl⟩ .nil))
    (by simpa using ⟨⟨_, hfirst⟩, ⟨_, hsecond⟩⟩)
  refine ⟨?_, ?_, ?_⟩
  · obtain ⟨tag, htag, rfl, hsql, -⟩ := hfield "sql"
    obtain ⟨-, -, rfl, htable, -⟩ := hfield "table"
    obtain ⟨-, -, rfl, -, hkey⟩ := hfield "key"
    refine ⟨_, htag, hsql [] _ _ rfl (by simp) ?_, htable [_] _ [] rfl ?_ ?_, hkey ?_⟩
    · rw [names_iff, hfirst.pairs_eq]
      decide
    · simp only [List.forall_mem_singleton, names_iff, hfirst.pairs_eq]
      decide
    · rw [names_iff, hsecond.pairs_eq]
      decide
    · simp only [List.forall_mem_cons, names_iff, hfirst.pairs_eq, hsecond.pairs_eq]
      decide
  · have hs := Sequence.single (exists_of_pair? hkey).1 0
    refine (tagOfField_composes "sql").2.2.2 _ _ ⟨_, _, " sql".toList,
      isLongest_iff.mpr ⟨hs, " sql".toList, by decide +kernel, by decide⟩, by decide +kernel,
      ⟨'s', by decide, by decide⟩, ?_⟩
    rintro ⟨n, name, tail, he, -⟩
    have hcolon : ':' ∈ " sql".toList := by simp [he]
    simp at hcolon
  · exact (tagOfField_composes "key").2.2.1 _ _ (names_of_pair? hopen rfl)

end

end TaggedRows.Tag
