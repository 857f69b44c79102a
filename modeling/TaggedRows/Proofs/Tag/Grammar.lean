import TaggedRows.Tag.Pair

/-!
# The grammar of tags

- **Bodies** (`IsBody`): what may stand between two quotes; a text is split at the quote that ends
  the body (`splitQuoted_eq_some`).
- **Pairs** (`Pair.IsLegal`, `Pair.text`): `pair?` reads a legal pair behind any number of spaces
  and nothing else (`pair?_eq_some`).
- **Sequences** (`Sequence`, `IsLongest`): texts that consist of pairs with spaces before them, and
  the longest such text that a tag begins with. There is exactly one, and `pairs` gives its pairs
  (`isLongest_iff`).
- **Lookup** (`lookup_eq_first_of_longest`): the decoded value of the first pair with the wanted
  name in the longest sequence of pairs that the tag begins with.
-/

namespace TaggedRows.Tag

/-! ## Bodies -/

/-- No quote is in the body but behind a backslash that consumes it, and every backslash has a
character to consume. -/
inductive IsBody : List Char → Prop where
  | nil : IsBody []
  | plain {c : Char} {cs : List Char} (hq : c ≠ '"') (hb : c ≠ '\\') (h : IsBody cs) :
    IsBody (c :: cs)
  /-- A backslash with the character that it consumes. -/
  | escaped {d : Char} {cs : List Char} (h : IsBody cs) : IsBody ('\\' :: d :: cs)

theorem isBody_of_splitQuoted {cs body rest : List Char}
    (h : splitQuoted cs = some (body, rest)) : IsBody body := by
  fun_induction splitQuoted cs generalizing body rest with
  | case1 => simp at h
  | case2 cs =>
    simp only [Option.some.injEq, Prod.mk.injEq] at h
    exact h.1 ▸ .nil
  | case3 => simp at h
  | case4 cs d _ ih =>
    simp only [Option.map_eq_some_iff, Prod.mk.injEq] at h
    obtain ⟨⟨b, r⟩, hs, rfl, -⟩ := h
    exact .escaped (ih hs)
  | case5 c cs hq hb ih =>
    simp only [Option.map_eq_some_iff, Prod.mk.injEq] at h
    obtain ⟨⟨b, r⟩, hs, rfl, -⟩ := h
    exact .plain hq hb (ih hs)

/-- The first quote behind a body ends it. -/
theorem splitQuoted_append {body : List Char} (h : IsBody body) (rest : List Char) :
    splitQuoted (body ++ '"' :: rest) = some (body, rest) := by
  induction h with
  | nil => rw [List.nil_append, splitQuoted.eq_def]; rfl
  | plain hq hb _ ih =>
    rw [List.cons_append, splitQuoted.eq_def]
    simp only [if_neg hq, if_neg hb, ih]
    rfl
  | escaped _ ih =>
    rw [List.cons_append, List.cons_append, splitQuoted.eq_def]
    simp only [ih]
    rfl

/-- A text is split at the quote that ends a body. -/
theorem splitQuoted_eq_some {cs body rest : List Char} :
    splitQuoted cs = some (body, rest) ↔ IsBody body ∧ cs = body ++ '"' :: rest := by
  constructor
  · intro h
    exact ⟨isBody_of_splitQuoted h, (append_of_splitQuoted h).symm⟩
  · rintro ⟨hb, rfl⟩
    exact splitQuoted_append hb rest

/-! ## Pairs -/

/-- The name is not empty and has no colon, no quote, no `U+007F` and nothing up to the space. -/
structure IsName (name : List Char) : Prop where
  ne_nil : name ≠ []
  chars : ∀ c ∈ name, ¬ (c ≤ ' ' ∨ c = ':' ∨ c = '"' ∨ c = '\x7f')

instance (name : List Char) : Decidable (IsName name) :=
  haveI := List.decidableBAll (fun c => ¬ (c ≤ ' ' ∨ c = ':' ∨ c = '"' ∨ c = '\x7f')) name
  decidable_of_iff (name ≠ [] ∧ ∀ c ∈ name, ¬ (c ≤ ' ' ∨ c = ':' ∨ c = '"' ∨ c = '\x7f'))
    ⟨fun ⟨h, h'⟩ => ⟨h, h'⟩, fun h => ⟨h.ne_nil, h.chars⟩⟩

theorem isNameChar_iff (c : Char) :
    isNameChar c = true ↔ ¬ (c ≤ ' ' ∨ c = ':' ∨ c = '"' ∨ c = '\x7f') := by
  simp only [isNameChar, Bool.and_eq_true, bne_iff_ne, decide_eq_true_eq, not_or, Char.not_le,
    and_assoc, ne_eq]

namespace Pair

/-- The pair as it is written. -/
def text (p : Pair) : List Char := p.name ++ ':' :: '"' :: (p.body ++ ['"'])

/-- The pair can be written so that it is read back. -/
structure IsLegal (p : Pair) : Prop where
  name : IsName p.name
  body : IsBody p.body

theorem text_append (p : Pair) (rest : List Char) :
    p.text ++ rest = p.name ++ ':' :: '"' :: (p.body ++ '"' :: rest) := by
  simp [text]

end Pair

theorem takeWhile_name {name : List Char} (h : IsName name) (rest : List Char) :
    (name ++ ':' :: rest).takeWhile isNameChar = name := by
  have hall : ∀ c ∈ name, isNameChar c = true := fun c hc => (isNameChar_iff c).mpr (h.chars c hc)
  rw [List.takeWhile_append_of_pos hall]
  simp [List.takeWhile, show isNameChar ':' = false by decide]

theorem dropWhile_name {name : List Char} (h : IsName name) (rest : List Char) :
    (name ++ ':' :: rest).dropWhile isNameChar = ':' :: rest := by
  have hall : ∀ c ∈ name, isNameChar c = true := fun c hc => (isNameChar_iff c).mpr (h.chars c hc)
  rw [List.dropWhile_append_of_pos hall]
  simp [List.dropWhile, show isNameChar ':' = false by decide]

/-- Names begin with no space, so the spaces before them are found. -/
theorem dropWhile_spaces {name : List Char} (h : IsName name) (n : Nat) (rest : List Char) :
    (List.replicate n ' ' ++ (name ++ rest)).dropWhile (· == ' ') = name ++ rest := by
  obtain ⟨c, cs, rfl⟩ := List.exists_cons_of_ne_nil h.ne_nil
  have hc : (c == ' ') = false := by
    have := h.chars c List.mem_cons_self
    simp only [beq_eq_false_iff_ne]
    rintro rfl
    exact this (.inl (by decide))
  rw [List.dropWhile_append_of_pos (by simp [List.mem_replicate])]
  simp [hc]

/-- A legal pair is read behind any number of spaces. -/
theorem pair?_append {p : Pair} (h : p.IsLegal) (n : Nat) (rest : List Char) :
    pair? (List.replicate n ' ' ++ p.text ++ rest) = some (p, rest) := by
  have he : (p.name.isEmpty) = false := by simpa using h.name.ne_nil
  simp only [pair?, List.append_assoc, p.text_append, dropWhile_spaces h.name,
    takeWhile_name h.name, dropWhile_name h.name, he, splitQuoted_append h.body]
  rfl

/-- What is read is a legal pair behind spaces. -/
theorem exists_of_pair? {cs rest : List Char} {p : Pair} (h : pair? cs = some (p, rest)) :
    p.IsLegal ∧ ∃ n, cs = List.replicate n ' ' ++ p.text ++ rest := by
  have hspaces : cs = List.replicate (cs.takeWhile (· == ' ')).length ' ' ++
      cs.dropWhile (· == ' ') := by
    have hall : ∀ c ∈ cs.takeWhile (· == ' '), c = ' ' := fun c hc => by
      simpa using List.all_eq_true.mp List.all_takeWhile c hc
    conv => lhs; rw [← List.takeWhile_append_dropWhile (p := (· == ' ')) (l := cs),
      List.eq_replicate_of_mem hall]
  simp only [pair?] at h
  split at h
  · simp at h
  next hne =>
  split at h
  · next tail heq =>
    simp only [Option.map_eq_some_iff, Prod.mk.injEq] at h
    obtain ⟨⟨body, r⟩, hs, rfl, rfl⟩ := h
    obtain ⟨hbody, rfl⟩ := splitQuoted_eq_some.mp hs
    refine ⟨⟨⟨by simpa using hne, fun c hc => ?_⟩, hbody⟩,
      (cs.takeWhile (· == ' ')).length, ?_⟩
    · exact (isNameChar_iff c).mp (List.all_eq_true.mp List.all_takeWhile c hc)
    · rw [List.append_assoc, Pair.text_append, ← heq, List.takeWhile_append_dropWhile]
      exact hspaces
  · simp at h

/-- `pair?` reads a legal pair behind any number of spaces, and nothing else. -/
theorem pair?_eq_some {cs rest : List Char} {p : Pair} : pair? cs = some (p, rest) ↔
    p.IsLegal ∧ ∃ n, cs = List.replicate n ' ' ++ p.text ++ rest := by
  constructor
  · exact exists_of_pair?
  · rintro ⟨hp, n, rfl⟩
    exact pair?_append hp n rest

/-! ## Sequences of pairs -/

/-- The text consists of the pairs, each after any number of spaces. -/
inductive Sequence : List Pair → List Char → Prop where
  | nil : Sequence [] []
  | cons {p : Pair} {ps : List Pair} {text : List Char} (n : Nat) (hp : p.IsLegal)
    (h : Sequence ps text) : Sequence (p :: ps) (List.replicate n ' ' ++ p.text ++ text)

/-- `taken` is the longest text that consists of pairs and that the tag begins with; `ps` are its
pairs. -/
structure IsLongest (tag taken : List Char) (ps : List Pair) : Prop where
  isPrefix : taken <+: tag
  sequence : Sequence ps taken
  longest : ∀ taken' ps', Sequence ps' taken' → taken' <+: tag → taken'.length ≤ taken.length

theorem Sequence.append {ps qs : List Pair} {text more : List Char} (h : Sequence ps text)
    (h' : Sequence qs more) : Sequence (ps ++ qs) (text ++ more) := by
  induction h with
  | nil => exact h'
  | cons n hp _ ih => simpa [List.append_assoc] using Sequence.cons n hp ih

theorem Sequence.single {p : Pair} (hp : p.IsLegal) (n : Nat) :
    Sequence [p] (List.replicate n ' ' ++ p.text) := by
  simpa using Sequence.cons n hp .nil

theorem pairs_of_pair? {cs rest : List Char} {p : Pair} (h : pair? cs = some (p, rest)) :
    pairs cs = p :: pairs rest := by
  rw [pairs]
  split
  · next hn => simp [h] at hn
  · next hs =>
    simp only [h, Option.some.injEq, Prod.mk.injEq] at hs
    rw [hs.1, hs.2]

theorem pairs_of_none {cs : List Char} (h : pair? cs = none) : pairs cs = [] := by
  rw [pairs]
  split
  · rfl
  · next hs => simp [h] at hs

/-- The pairs of a sequence are read one after the other, whatever follows them. -/
theorem Sequence.pairs_append {ps : List Pair} {text : List Char} (h : Sequence ps text)
    (rest : List Char) : pairs (text ++ rest) = ps ++ pairs rest := by
  induction h with
  | nil => rfl
  | cons n hp _ ih =>
    rw [List.append_assoc, pairs_of_pair? (pair?_append hp n _), ih, List.cons_append]

/-- The reading takes a sequence of pairs, and no pair begins where it stops. -/
theorem exists_sequence_pairs (cs : List Char) :
    ∃ taken rest, cs = taken ++ rest ∧ Sequence (pairs cs) taken ∧ pair? rest = none := by
  fun_induction pairs cs with
  | case1 cs h => exact ⟨[], cs, rfl, .nil, h⟩
  | case2 cs p rest h ih =>
    obtain ⟨taken, last, rfl, hs, hn⟩ := ih
    obtain ⟨hp, n, rfl⟩ := exists_of_pair? h
    exact ⟨_, last, by simp [List.append_assoc], hs.cons n hp, hn⟩

/-- A sequence of pairs at the start of a text ends before any place where no pair begins. -/
theorem Sequence.length_le {ps qs : List Pair} {text taken rest more : List Char}
    (h : Sequence ps text) (ht : Sequence qs taken) (hr : pair? rest = none)
    (he : text ++ more = taken ++ rest) : text.length ≤ taken.length := by
  induction h generalizing taken qs with
  | nil => exact Nat.zero_le _
  | @cons p ps text n hp _ ih =>
    have hread : pair? (taken ++ rest) = some (p, text ++ more) := by
      rw [← he, List.append_assoc, pair?_append hp n]
    cases ht with
    | nil => simp [hr] at hread
    | @cons q qs taken m hq ht =>
      rw [List.append_assoc, pair?_append hq m] at hread
      simp only [Option.some.injEq, Prod.mk.injEq] at hread
      obtain ⟨rfl, hrest⟩ := hread
      have hle := ih ht hrest.symm
      have hlen := congrArg List.length he
      have hmore := congrArg List.length hrest
      simp only [List.length_append, List.length_replicate] at hlen hmore ⊢
      omega

/-- The pairs that are read are those of the one longest sequence. -/
theorem isLongest_iff {tag taken : List Char} {ps : List Pair} :
    IsLongest tag taken ps ↔
      Sequence ps taken ∧ ∃ rest, tag = taken ++ rest ∧ pair? rest = none := by
  constructor
  · rintro ⟨⟨rest, rfl⟩, hs, hl⟩
    refine ⟨hs, rest, rfl, ?_⟩
    cases hp : pair? rest with
    | none => rfl
    | some found =>
      -- One more pair makes a longer sequence.
      obtain ⟨hlegal, n, rfl⟩ := exists_of_pair? hp
      have := hl _ _ (hs.append (.single hlegal n)) ⟨found.2, by simp [List.append_assoc]⟩
      have hpos : 0 < found.1.text.length := by
        simp only [Pair.text, List.length_append, List.length_cons]
        omega
      simp only [List.length_append] at this
      omega
  · rintro ⟨hs, rest, rfl, hn⟩
    refine ⟨List.prefix_append _ _, hs, ?_⟩
    rintro taken' ps' hs' ⟨more, he⟩
    exact hs'.length_le hs hn he

theorem IsLongest.pairs_eq {tag taken : List Char} {ps : List Pair} (h : IsLongest tag taken ps) :
    pairs tag = ps := by
  obtain ⟨hs, rest, rfl, hn⟩ := isLongest_iff.mp h
  rw [hs.pairs_append, pairs_of_none hn, List.append_nil]

theorem exists_isLongest (tag : List Char) : ∃ taken, IsLongest tag taken (pairs tag) := by
  obtain ⟨taken, rest, he, hs, hn⟩ := exists_sequence_pairs tag
  exact ⟨taken, isLongest_iff.mpr ⟨hs, rest, he, hn⟩⟩

/-! ## Lookup -/

/-- The decoded value of the first pair with the given name. -/
def firstValue? (name : List Char) (ps : List Pair) : Option (List Char) :=
  (ps.find? (·.name = name)).bind fun p => unquote p.body

theorem value?_eq_firstValue? (name cs : List Char) :
    value? name cs = firstValue? name (pairs cs) := by
  fun_induction value? name cs with
  | case1 cs h => rw [pairs_of_none h]; rfl
  | case2 cs p rest h hp => rw [pairs_of_pair? h]; simp [firstValue?, hp]
  | case3 cs p rest h hp ih => rw [pairs_of_pair? h, ih]; simp [firstValue?, hp]

/-- Every tag begins with one longest sequence of pairs, and what is stored under a key is the
decoded body of the first pair with that name in it. -/
theorem lookup_eq_first_of_longest (tag : String) : ∃ taken ps,
    IsLongest tag.toList taken ps ∧
    (∀ taken' ps', IsLongest tag.toList taken' ps' → taken' = taken ∧ ps' = ps) ∧
    ∀ key : String, lookup tag key = (firstValue? key.toList ps).map String.ofList := by
  obtain ⟨taken, h⟩ := exists_isLongest tag.toList
  refine ⟨taken, pairs tag.toList, h, fun taken' ps' h' => ⟨?_, h'.pairs_eq.symm⟩, fun key => ?_⟩
  · have hlen := Nat.le_antisymm (h.longest _ _ h'.sequence h'.isPrefix)
      (h'.longest _ _ h.sequence h.isPrefix)
    have hprefix := List.prefix_of_prefix_length_le h'.isPrefix h.isPrefix (Nat.le_of_eq hlen)
    exact hprefix.eq_of_length hlen
  · rw [lookup, value?_eq_firstValue?]

end TaggedRows.Tag
