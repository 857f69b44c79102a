import TaggedRows.Accessor.Tokens
import TaggedRows.Proofs.Source.Following

/-!
# Paths where generated code has them

A path of names is followed to its end in an import, in a type and in a bound, as long as nothing
behind it goes on with it.

- **Words** (`Ident.IsPathWord`, `Ident.IsSegmentWord`): what may stand in a path.
- **Beginnings and ends** (`Source.BeginsPath`, `Source.EndsPath`): what is no path, and what does
  not go on with one.
- **Types** (`Source.EndsType`, `Source.follow_type`, `Source.follow_bounds`): a path with or
  without generic arguments behind it.
- **Imports** (`Source.follow_useTree`).
-/

namespace TaggedRows

namespace Ident

/-- The word may stand as a name. -/
def IsName (id : Ident) : Prop := id.isKeyword = false

/-- The word may stand as a field: a name or the placeholder. -/
def IsFieldName (id : Ident) : Prop := id.IsName ∨ id = plain "_"

/-- The words that may begin a path besides names. -/
def pathKeywords : List String := ["super", "self", "crate"]

/-- The word may stand anywhere in a path. -/
def IsPathWord (id : Ident) : Prop := id.IsName ∨ id ∈ pathKeywords.map plain

/-- The word may stand in the path of a type; `try` not in front. -/
def IsSegmentWord (id : Ident) : Prop := id.IsPathWord ∨ id = plain "try"

theorem isName_plain {s : String} (h : s ∉ keywords) : (plain s).IsName := by
  simpa [IsName, isKeyword, plain] using h

end Ident

namespace Source

open Form Ident

variable {id : Ident} {ids : List Ident} {X W : List Token}

theorem admits_name (h : id.IsName) : TokenClass.name.admits (.word id) = true := by
  simp [TokenClass.admits, show id.isKeyword = false from h]

theorem admits_kw_of_isName (h : id.IsName) {s : String} (hs : s ∈ keywords) :
    (TokenClass.kw s).admits (.word id) = false := by
  rw [Bool.eq_false_iff]
  intro hk
  obtain ⟨hraw, hname⟩ := Bool.and_eq_true_iff.mp hk
  rw [IsName, isKeyword, hraw, Bool.true_and, beq_iff_eq.mp hname,
    List.contains_iff_mem.mpr hs] at h
  cases h

/-- No other keyword is a word of a path. -/
theorem admits_kw_of_isPathWord (h : id.IsPathWord) {s : String}
    (hs : (keywords.contains s && !pathKeywords.contains s) = true) :
    (TokenClass.kw s).admits (.word id) = false := by
  obtain ⟨hkeyword, hother⟩ := Bool.and_eq_true_iff.mp hs
  rcases h with h | h
  · exact admits_kw_of_isName h (List.contains_iff_mem.mp hkeyword)
  · obtain ⟨name, hname, rfl⟩ := List.mem_map.mp h
    rw [Bool.eq_false_iff]
    intro hk
    obtain rfl : name = s := by simpa [TokenClass.admits, plain] using hk
    rw [Bool.not_eq_true', ← Bool.not_eq_true] at hother
    exact hother (List.contains_iff_mem.mpr hname)

theorem of_mem_pathKeywords (h : id ∈ pathKeywords.map plain) :
    id = plain "super" ∨ id = plain "self" ∨ id = plain "crate" := by
  simpa [pathKeywords] using h

theorem follow_pathWord (h : id.IsPathWord) : follow pathWord (.word id :: X) = .accepted X := by
  rcases h with h | h
  · simp [pathWord, oneOf, Source.name, admits_name h]
  · rcases of_mem_pathKeywords h with rfl | rfl | rfl <;> exact follow_of_run (n := 9) rfl (by simp)

/-! ## Ends of paths -/

/-- No path goes on with these tokens, and no bounds and no macro call follow one. -/
def EndsPath (ts : List Token) : Prop :=
  ∀ c joint, ts.head? = some (.punct c joint) → c ∉ ['<', ':', '!', '+']

theorem EndsPath.refuses (h : EndsPath X) {c : Char} (hc : c ∈ ['<', ':', '!', '+']) :
    follow (.token (.punct c)) X = .refused ∧ follow (.token (.joint c)) X = .refused := by
  cases X with
  | nil => simp
  | cons t X =>
    have hno : ∀ d joint, t = .punct d joint → c ≠ d := by
      rintro d joint rfl rfl
      exact h c joint rfl hc
    cases t with
    | punct d joint => simp [TokenClass.admits, hno d joint rfl]
    | _ => simp [TokenClass.admits]

theorem endsPath_of_head {c : Char} {joint : Bool} (h : c ∉ ['<', ':', '!', '+']) :
    EndsPath (.punct c joint :: X) := by
  intro d joint' hd
  cases hd
  exact h

theorem endsPath_closing (d : Delimiter) (X : List Token) : EndsPath (.closing d :: X) :=
  fun _ _ h => by cases h

theorem endsPath_opening (d : Delimiter) (X : List Token) : EndsPath (.opening d :: X) :=
  fun _ _ h => by cases h

theorem EndsPath.pathSep (h : EndsPath X) : follow pathSep X = .refused := by
  change follow (.seq (.token (.joint ':')) _) X = _
  rw [follow_seq, (h.refuses (by simp)).2]
  rfl

theorem EndsPath.less (h : EndsPath X) : follow less X = .refused := by
  have hlonger : follow (op "<=") X = .refused := by
    change follow (.seq (.token (.joint '<')) _) X = _
    rw [follow_seq, (h.refuses (by simp)).2]
    rfl
  have hop : follow (op "<") X = .refused := (h.refuses (c := '<') (by simp)).1
  simp [Source.less, opOnly, never, oneOf, hlonger, hop]

theorem EndsPath.bang (h : EndsPath X) : follow bang X = .refused := by
  have hlonger : follow (op "!=") X = .refused := by
    change follow (.seq (.token (.joint '!')) _) X = _
    rw [follow_seq, (h.refuses (by simp)).2]
    rfl
  have hop : follow (op "!") X = .refused := (h.refuses (c := '!') (by simp)).1
  simp [Source.bang, opOnly, never, oneOf, hlonger, hop]

theorem EndsPath.plus (h : EndsPath X) : follow (op "+") X = .refused :=
  (h.refuses (c := '+') (by simp)).1

/-! ## Segments -/

/-- The separator of a path, and what follows it. -/
theorem follow_pathSep (X : List Token) : follow pathSep (Token.op "::" ++ X) = .accepted X :=
  follow_of_run (n := 9) rfl (by simp)

theorem follow_pathSep_word (id : Ident) (X : List Token) :
    follow pathSep (.word id :: X) = .refused :=
  follow_of_run (n := 9) rfl (by simp)

/-- No generic arguments follow a segment. -/
structure EndsSegment (ts : List Token) : Prop where
  less : follow Source.less ts = .refused
  turbofish : follow (.seq Source.pathSep (op "<")) ts = .refused

theorem EndsPath.endsSegment (h : EndsPath X) : EndsSegment X :=
  ⟨h.less, by rw [follow_seq, h.pathSep]; rfl⟩

theorem endsSegment_separator (id : Ident) (X : List Token) :
    EndsSegment (Token.op "::" ++ .word id :: X) :=
  ⟨follow_of_run (n := 9) rfl (by simp), follow_of_run (n := 9) rfl (by simp)⟩

theorem follow_typeSegment (h : id.IsSegmentWord) (hX : EndsSegment X) :
    follow typeSegment (.word id :: X) = .accepted X := by
  rcases h with (h | h) | rfl
  · have hkw : ∀ s ∈ keywords, (TokenClass.kw s).admits (.word id) = false := fun s hs =>
      admits_kw_of_isName h hs
    simp (disch := decide) [typeSegment, bareSegment, oneOf, cases, Form.kw, Source.name, hkw,
      admits_name h, hX.less, hX.turbofish]
  · rcases of_mem_pathKeywords h with rfl | rfl | rfl <;> exact follow_of_run (n := 9) rfl (by simp)
  · exact follow_of_run (n := 9) rfl (by simp)

theorem follow_typeSegment_args (h : id.IsName)
    (hX : follow genericArgs (Token.op "<" ++ X) = .accepted W) :
    follow typeSegment (.word id :: (Token.op "<" ++ X)) = .accepted W := by
  have hkw : ∀ s ∈ keywords, (TokenClass.kw s).admits (.word id) = false := fun s hs =>
    admits_kw_of_isName h hs
  have hless : follow Source.less (Token.op "<" ++ X) = .accepted X :=
    follow_of_run (n := 9) rfl (by simp)
  simp (disch := decide) [typeSegment, bareSegment, oneOf, cases, Form.kw, Source.name, hkw,
    admits_name h, hless, hX]

/-- The names behind the first one of a path. -/
def furtherNames (ids : List Ident) : List Token :=
  ids.flatMap fun id => Token.op "::" ++ [.word id]

theorem path_cons (id : Ident) (ids : List Ident) :
    Token.path (id :: ids) = .word id :: furtherNames ids := by
  induction ids generalizing id with
  | nil => rfl
  | cons next ids ih =>
    rw [Token.path, ih]
    · simp [furtherNames]
    · simp

theorem endsSegment_furtherNames (hX : EndsSegment X) (ids : List Ident) :
    EndsSegment (furtherNames ids ++ X) := by
  cases ids with
  | nil => exact hX
  | cons id ids => exact endsSegment_separator id (furtherNames ids ++ X)

/-- The segments of a path in a type behind the first one. -/
def furtherSegments : SForm := .loop (.seq pathSep (never openParen)) (.seq pathSep typeSegment)

theorem follow_furtherSegments_cons (id : Ident) (X : List Token) :
    follow furtherSegments (Token.op "::" ++ .word id :: X) =
      (follow typeSegment (.word id :: X)).andThen (follow furtherSegments) := by
  have htest : follow (.seq pathSep (never openParen)) (Token.op "::" ++ .word id :: X) =
      .accepted (.word id :: X) := follow_of_run (n := 9) rfl (by simp)
  rw [furtherSegments, follow_loop, htest, Outcome.branch_accepted, follow_seq, follow_pathSep,
    Outcome.andThen_accepted]

theorem EndsPath.furtherSegments (h : EndsPath X) : follow furtherSegments X = .accepted X := by
  have htest : follow (.seq Source.pathSep (never openParen)) X = .refused := by
    rw [follow_seq, h.pathSep]
    rfl
  rw [Source.furtherSegments, follow_loop, htest]
  rfl

theorem follow_furtherNames (h : ∀ id ∈ ids, id.IsSegmentWord) (hX : EndsSegment X) :
    follow furtherSegments (furtherNames ids ++ X) = follow furtherSegments X := by
  induction ids with
  | nil => rfl
  | cons id ids ih =>
    obtain ⟨hid, hids⟩ := List.forall_mem_cons.mp h
    change follow _ (Token.op "::" ++ .word id :: (furtherNames ids ++ X)) = _
    rw [follow_furtherSegments_cons,
      follow_typeSegment hid (endsSegment_furtherNames hX ids), Outcome.andThen_accepted, ih hids]

/-! ## Paths in types -/

/-- The separator in front of a path from the root. -/
def leading (isAbsolute : Bool) : List Token := if isAbsolute then Token.op "::" else []

/-- A path, from the root or not. -/
def placedPath (isAbsolute : Bool) (ids : List Ident) : List Token :=
  leading isAbsolute ++ Token.path ids

theorem placedPath_cons (isAbsolute : Bool) (id : Ident) (ids : List Ident) (X : List Token) :
    placedPath isAbsolute (id :: ids) ++ X =
      leading isAbsolute ++ .word id :: (furtherNames ids ++ X) := by
  rw [placedPath, path_cons, List.append_assoc, List.cons_append]

/-- The path may stand where a type is read. -/
structure FitsType (isAbsolute : Bool) (ids : List Ident) : Prop where
  ne_nil : ids ≠ []
  segments : ∀ id ∈ ids, id.IsSegmentWord
  head : isAbsolute = true ∨ ∃ id ∈ ids.head?, id.IsPathWord

variable {isAbsolute : Bool}

theorem fitsType_plain (isAbsolute : Bool) (names : List String) (hne : names ≠ [])
    (h : ∀ s ∈ names, s ∉ keywords) : FitsType isAbsolute (names.map plain) := by
  have hnames : ∀ id ∈ names.map plain, id.IsPathWord := by
    intro id hid
    obtain ⟨s, hs, rfl⟩ := List.mem_map.mp hid
    exact .inl (isName_plain (h s hs))
  obtain ⟨s, names, rfl⟩ := List.exists_cons_of_ne_nil hne
  exact ⟨by simp, fun id hid => .inl (hnames id hid), .inr ⟨_, rfl, hnames _ (by simp)⟩⟩

theorem follow_leading (isAbsolute : Bool) (id : Ident) (X : List Token) :
    follow (optIf pathSep pathSep) (leading isAbsolute ++ .word id :: X) =
      .accepted (.word id :: X) := by
  cases isAbsolute <;> exact follow_of_run (n := 9) rfl (by simp)

/-- The path goes on behind the names. -/
theorem follow_typePath (h : FitsType isAbsolute ids) (hX : EndsSegment X) :
    follow typePath (placedPath isAbsolute ids ++ X) = follow furtherSegments X := by
  obtain ⟨id, ids, rfl⟩ := List.exists_cons_of_ne_nil h.ne_nil
  obtain ⟨hid, hrest⟩ := List.forall_mem_cons.mp h.segments
  rw [placedPath_cons, typePath, follow_seq, follow_leading, Outcome.andThen_accepted, segments,
    follow_seq, follow_typeSegment hid (endsSegment_furtherNames hX ids), Outcome.andThen_accepted]
  exact follow_furtherNames hrest hX

/-! ### Macro names -/

/-- The words of a plain path behind the first one. -/
def furtherWords : SForm := .loop pathSep (.seq pathSep pathWord)

theorem follow_pathWord_cases (id : Ident) (X : List Token) :
    follow pathWord (.word id :: X) = .accepted X ∨ follow pathWord (.word id :: X) = .refused := by
  have htoken : ∀ c, follow (.token c) (.word id :: X) = .accepted X ∨
      follow (.token c) (.word id :: X) = .refused := fun c => by
    rw [follow_token_cons]
    split
    · exact .inl rfl
    · exact .inr rfl
  have hchoice : ∀ {f g : SForm}, (follow f (.word id :: X) = .accepted X ∨
      follow f (.word id :: X) = .refused) → (follow g (.word id :: X) = .accepted X ∨
      follow g (.word id :: X) = .refused) → (follow (.ite f f g) (.word id :: X) = .accepted X ∨
      follow (.ite f f g) (.word id :: X) = .refused) := by
    intro f g hf hg
    rw [follow_ite]
    rcases hf with hf | hf <;> rw [hf]
    · exact .inl rfl
    · exact hg
  exact hchoice (htoken _) (hchoice (htoken _) (hchoice (htoken _)
    (hchoice (htoken _) (htoken _))))

theorem follow_furtherWords_cons (id : Ident) (X : List Token) :
    follow furtherWords (Token.op "::" ++ .word id :: X) =
      (follow pathWord (.word id :: X)).andThen (follow furtherWords) := by
  rw [furtherWords, follow_loop, follow_pathSep, Outcome.branch_accepted, follow_seq,
    follow_pathSep, Outcome.andThen_accepted]

/-- No name of a macro ends here. -/
def EndsNoMacro (ts : List Token) : Prop := follow (.seq furtherWords bang) ts = .refused

theorem EndsPath.endsNoMacro (h : EndsPath X) : EndsNoMacro X := by
  rw [EndsNoMacro, follow_seq, furtherWords, follow_loop, h.pathSep, Outcome.branch_refused,
    Outcome.andThen_accepted, h.bang]

/-- A path names no macro where nothing behind it does. -/
theorem follow_macroName (isAbsolute : Bool) (hids : ids ≠ []) (hX : EndsNoMacro X) :
    follow (.seq plainPath bang) (placedPath isAbsolute ids ++ X) = .refused := by
  have hfurther : ∀ ids, EndsNoMacro (furtherNames ids ++ X) := by
    intro ids
    induction ids with
    | nil => exact hX
    | cons id ids ih =>
      change follow _ (Token.op "::" ++ .word id :: (furtherNames ids ++ X)) = _
      rw [EndsNoMacro, follow_seq] at ih
      rw [follow_seq, follow_furtherWords_cons]
      rcases follow_pathWord_cases id (furtherNames ids ++ X) with hw | hw <;> rw [hw]
      · exact ih
      · rfl
  obtain ⟨id, ids, rfl⟩ := List.exists_cons_of_ne_nil hids
  have hrest := hfurther ids
  rw [EndsNoMacro, follow_seq] at hrest
  rw [placedPath_cons, follow_seq, plainPath, follow_list_cons, follow_leading,
    Outcome.andThen_accepted, follow_list_cons]
  rcases follow_pathWord_cases id (furtherNames ids ++ X) with hw | hw <;> rw [hw]
  · exact hrest
  · rfl

/-! ### Beginnings of paths -/

/-- A path begins here. -/
def BeginsPath (ts : List Token) : Prop :=
  (∃ Y, ts = Token.op "::" ++ Y) ∨ ∃ id Y, id.IsPathWord ∧ ts = .word id :: Y

theorem FitsType.beginsPath (h : FitsType isAbsolute ids) (X : List Token) :
    BeginsPath (placedPath isAbsolute ids ++ X) := by
  obtain ⟨id, ids, rfl⟩ := List.exists_cons_of_ne_nil h.ne_nil
  rw [placedPath_cons]
  cases isAbsolute with
  | true => exact .inl ⟨_, rfl⟩
  | false =>
    obtain hfalse | ⟨id', hhead, hid⟩ := h.head
    · cases hfalse
    · cases hhead
      exact .inr ⟨id, _, hid, rfl⟩

/-- The classes of tokens that no path begins with. -/
def otherBeginnings : List TokenClass :=
  [.opening .paren, .opening .bracket, .opening .brace, .literal, .anyOpening, .anyClosing,
    .punct '<', .punct '&', .punct '*', .punct '!', .punct '~', .punct '?', .punct '-', .punct '>',
    .punct '#', .joint '\'', .joint '!', .joint '.']

theorem BeginsPath.token (h : BeginsPath X) {c : TokenClass} (hc : c ∈ otherBeginnings) :
    follow (.token c) X = .refused := by
  obtain ⟨Y, rfl⟩ | ⟨id, Y, -, rfl⟩ := h
  · change follow (.token c) (.punct ':' true :: _) = _
    rw [follow_token_cons]
    simp only [otherBeginnings, List.mem_cons, List.not_mem_nil, or_false] at hc
    rcases hc with rfl | rfl | rfl | rfl | rfl | rfl | rfl | rfl | rfl | rfl | rfl | rfl | rfl |
      rfl | rfl | rfl | rfl | rfl <;> rfl
  · rw [follow_token_cons]
    simp only [otherBeginnings, List.mem_cons, List.not_mem_nil, or_false] at hc
    rcases hc with rfl | rfl | rfl | rfl | rfl | rfl | rfl | rfl | rfl | rfl | rfl | rfl | rfl |
      rfl | rfl | rfl | rfl | rfl <;> rfl

theorem BeginsPath.kw (h : BeginsPath X) {s : String}
    (hs : (keywords.contains s && !pathKeywords.contains s) = true) :
    follow (kw s) X = .refused := by
  obtain ⟨Y, rfl⟩ | ⟨id, Y, hid, rfl⟩ := h
  · exact follow_of_run (n := 9) rfl (by simp)
  · rw [Form.kw, follow_token_cons, admits_kw_of_isPathWord hid hs]
    rfl

theorem BeginsPath.lifetime (h : BeginsPath X) : follow lifetime X = .refused := by
  rw [Source.lifetime, follow_seq, h.token (by decide)]
  rfl

theorem BeginsPath.typePathStart (h : BeginsPath X) :
    ∃ Y, follow typePathStart X = .accepted Y := by
  obtain ⟨Y, rfl⟩ | ⟨id, Y, hid, rfl⟩ := h
  · exact ⟨Y, follow_of_run (n := 9) rfl (by simp)⟩
  · refine ⟨Y, ?_⟩
    rcases hid with hid | hid
    · simp [Source.typePathStart, oneOf, Source.name, admits_name hid]
    · rcases of_mem_pathKeywords hid with rfl | rfl | rfl <;>
        exact follow_of_run (n := 9) rfl (by simp)

theorem BeginsPath.constStart (h : BeginsPath X) : follow constStart X = .refused := by
  have hminus : follow (op "-") X = .refused := h.token (c := .punct '-') (by decide)
  have hliteral : follow literal X = .refused := h.token (by decide)
  have hbrace : follow openBrace X = .refused := h.token (by decide)
  simp (disch := decide) only [Source.constStart, follow_oneOf_cons, follow_oneOf_singleton,
    follow_seq, hliteral, hminus, hbrace, h.kw, Outcome.branch_refused, Outcome.andThen_refused]

/-! ## Types and bounds -/

/-- Behind its names, the path of a type goes on up to the second tokens, and nothing goes on with
it there. -/
structure EndsType (ts rest : List Token) : Prop where
  segment : EndsSegment ts
  further : follow furtherSegments ts = .accepted rest
  noMacro : EndsNoMacro ts
  ends : EndsPath rest

theorem EndsPath.endsType (h : EndsPath X) : EndsType X X :=
  ⟨h.endsSegment, h.furtherSegments, h.endsNoMacro, h⟩

/-- One more name, with generic arguments. -/
theorem endsType_args (h : id.IsName) (hX : follow genericArgs (Token.op "<" ++ X) = .accepted W)
    (hW : EndsPath W) : EndsType (Token.op "::" ++ .word id :: (Token.op "<" ++ X)) W := by
  have hmacro : follow (.seq furtherWords bang) (Token.op "<" ++ X) = .refused :=
    follow_of_run (n := 9) rfl (by simp)
  refine ⟨endsSegment_separator id _, ?_, ?_, hW⟩
  · rw [follow_furtherSegments_cons, follow_typeSegment_args h hX]
    exact hW.furtherSegments
  · rw [follow_seq] at hmacro
    rw [EndsNoMacro, follow_seq, follow_furtherWords_cons, follow_pathWord (.inl h)]
    exact hmacro

theorem follow_type (plus : Bool) (h : FitsType isAbsolute ids) (hX : EndsType X W) :
    follow (.phrase (.type plus)) (placedPath isAbsolute ids ++ X) = .accepted W := by
  have hpath := follow_typePath h hX.segment
  have hmacro := follow_macroName isAbsolute h.ne_nil hX.noMacro
  have hbegins := h.beginsPath X
  have hsum : follow (sumTail plus) W = .accepted W := by
    cases plus
    · exact follow_empty
    · change follow plusBounds W = _
      rw [plusBounds, follow_loop, hX.ends.plus]
      rfl
  have hopen : follow openParen (placedPath isAbsolute ids ++ X) = .refused :=
    hbegins.token (by decide)
  have hangle : follow (op "<") (placedPath isAbsolute ids ++ X) = .refused :=
    hbegins.token (c := .punct '<') (by decide)
  obtain ⟨Y, hstart⟩ := hbegins.typePathStart
  rw [typePath, follow_seq] at hpath
  rw [follow_phrase]
  change follow (typeForm plus) _ = _
  rw [typeForm]
  simp (disch := decide) only [follow_ite, follow_cases_cons, follow_oneOf_cons,
    follow_oneOf_singleton, hbegins.kw, hopen, hmacro, hangle, hstart, Outcome.branch_refused,
    Outcome.branch_accepted]
  rw [follow_seq, qualifiedPath, follow_ite, hangle, Outcome.branch_refused, follow_seq, hpath,
    hX.further, Outcome.andThen_accepted, hsum]

/-- The bounds of a trait object without a sum. -/
theorem follow_bounds (h : FitsType isAbsolute ids) (hX : EndsPath X)
    (hparen : follow openParen X = .refused) :
    follow (.phrase (.bounds false)) (placedPath isAbsolute ids ++ X) = .accepted X := by
  have hpath := follow_typePath h hX.endsSegment
  rw [hX.furtherSegments] at hpath
  have hbegins := h.beginsPath X
  have hopen : follow openParen (placedPath isAbsolute ids ++ X) = .refused :=
    hbegins.token (by decide)
  have htilde : follow (op "~") (placedPath isAbsolute ids ++ X) = .refused :=
    hbegins.token (c := .punct '~') (by decide)
  have hask : follow (op "?") (placedPath isAbsolute ids ++ X) = .refused :=
    hbegins.token (c := .punct '?') (by decide)
  have hcall : follow (.seq pathSep openParen) X = .refused := by
    rw [follow_seq, hX.pathSep]
    rfl
  rw [follow_phrase]
  change follow (.seq (never lifetime) (.phrase .bound)) _ = _
  rw [follow_seq, follow_never, hbegins.lifetime, Outcome.branch_refused,
    Outcome.andThen_accepted, follow_phrase]
  change follow boundForm _ = _
  simp (disch := decide) only [boundForm, follow_cases_cons, follow_cases_nil, hbegins.lifetime,
    hbegins.kw, hopen, traitBound, forLifetimes, follow_list_cons, follow_list_singleton,
    follow_optIf, htilde, hask, follow_empty, hpath, hparen, hcall, Outcome.branch_refused,
    Outcome.andThen_accepted]

/-- The one argument between angle brackets. -/
theorem follow_genericArgs {arg : List Token}
    (hless : follow (op ">") (arg ++ (Token.op ">" ++ X)) = .refused)
    (hlifetime : follow lifetime (arg ++ (Token.op ">" ++ X)) = .refused)
    (hconst : follow constStart (arg ++ (Token.op ">" ++ X)) = .refused)
    (htype : follow type (arg ++ (Token.op ">" ++ X)) = .accepted (Token.op ">" ++ X)) :
    follow genericArgs (Token.op "<" ++ (arg ++ (Token.op ">" ++ X))) = .accepted X := by
  have hopen : follow (op "<") (Token.op "<" ++ (arg ++ (Token.op ">" ++ X))) =
      .accepted (arg ++ (Token.op ">" ++ X)) := follow_of_run (n := 9) rfl (by simp)
  have hend : follow (op ">") (Token.op ">" ++ X) = .accepted X :=
    follow_of_run (n := 9) rfl (by simp)
  have harg : follow genericArg (arg ++ (Token.op ">" ++ X)) = .accepted (Token.op ">" ++ X) := by
    have hmore : follow (cases .empty
        [(equals, .seq (op "=") (.ite constStart constArgument type)),
          (colon, .seq (op ":") (boundsUntil (oneOf [op ",", op ">"])))]) (Token.op ">" ++ X) =
        .accepted (Token.op ">" ++ X) := follow_of_run (n := 19) rfl (by simp)
    rw [genericArg, follow_cases_cons, follow_seq, hlifetime, Outcome.andThen_refused,
      Outcome.branch_refused, follow_cases_cons, hconst, Outcome.branch_refused, follow_cases_nil,
      follow_seq, htype, Outcome.andThen_accepted, hmore]
  have hcomma : follow (.ite (op ">") .empty (op ",")) (Token.op ">" ++ X) =
      .accepted (Token.op ">" ++ X) := follow_of_run (n := 9) rfl (by simp)
  have hstop : follow (never (op ">")) (Token.op ">" ++ X) = .refused :=
    follow_of_run (n := 9) rfl (by simp)
  have hloop : ∀ body, follow (.loop (never (op ">")) body) (Token.op ">" ++ X) =
      .accepted (Token.op ">" ++ X) := fun body => by
    rw [follow_loop, hstop, Outcome.branch_refused]
  rw [genericArgs, follow_phrase]
  change follow (angleList genericArg) _ = _
  rw [angleList, follow_list_cons, hopen, Outcome.andThen_accepted, follow_list_cons, follow_loop,
    follow_never, hless, Outcome.branch_refused, Outcome.branch_accepted, follow_seq, harg,
    Outcome.andThen_accepted, hcomma, Outcome.andThen_accepted, hloop, Outcome.andThen_accepted,
    follow_list_singleton, hend]

/-- A reference, and the type behind its marks. -/
theorem follow_type_reference (plus : Bool) {ts mid : List Token}
    (h : follow (.seq (opt lifetime) (opt (kw "mut"))) ts = .accepted mid) :
    follow (.phrase (.type plus)) (Token.op "&" ++ ts) = follow (.phrase (.type false)) mid := by
  have hfor : follow (kw "for") (Token.op "&" ++ ts) = .refused :=
    follow_of_run (n := 9) rfl (by simp)
  have hopen : follow (op "&") (Token.op "&" ++ ts) = .accepted ts :=
    follow_of_run (n := 9) rfl (by simp)
  rw [follow_seq] at h
  obtain ⟨mid', hlifetime, hmut⟩ := Outcome.andThen_eq_accepted.mp h
  rw [follow_phrase]
  change follow (typeForm plus) _ = _
  rw [typeForm]
  simp only [follow_ite, hfor, Outcome.branch_refused]
  rw [follow_cases_at 8 30 rfl rfl hopen, follow_list_cons, hopen, Outcome.andThen_accepted,
    follow_list_cons, hlifetime, Outcome.andThen_accepted, follow_list_cons, hmut,
    Outcome.andThen_accepted, follow_list_singleton, typeWithoutPlus]

theorem follow_type_dyn (plus : Bool) (h : follow (op "*") X = .refused) :
    follow (.phrase (.type plus)) (Token.kw "dyn" :: X) = follow (.phrase (.bounds plus)) X := by
  have hfor : follow (kw "for") (Token.kw "dyn" :: X) = .refused :=
    follow_of_run (n := 9) rfl (by simp)
  have hdyn : follow (kw "dyn") (Token.kw "dyn" :: X) = .accepted X :=
    follow_of_run (n := 9) rfl (by simp)
  rw [follow_phrase]
  change follow (typeForm plus) _ = _
  rw [typeForm]
  simp only [follow_ite, hfor, Outcome.branch_refused]
  rw [follow_cases_at 5 30 rfl rfl hdyn, follow_list_cons, hdyn, Outcome.andThen_accepted,
    follow_list_cons, follow_opt, h, Outcome.branch_refused, Outcome.andThen_accepted,
    follow_list_singleton]

/-! ## Imports -/

theorem follow_useTree_cons (h : id.IsPathWord) :
    follow (.phrase .useTree) (.word id :: (Token.op "::" ++ X)) =
      follow (.phrase .useTree) X := by
  have hstart : follow (oneOf [Source.name, kw "self", kw "super", kw "crate"])
      (.word id :: (Token.op "::" ++ X)) = .accepted (Token.op "::" ++ X) := by
    rcases h with h | h
    · simp [oneOf, Source.name, admits_name h]
    · rcases of_mem_pathKeywords h with rfl | rfl | rfl <;>
        exact follow_of_run (n := 9) rfl (by simp)
  rw [follow_phrase]
  change follow useTreeForm _ = _
  simp only [useTreeForm, follow_cases_cons, follow_seq, hstart, Outcome.andThen_accepted,
    follow_pathSep, Outcome.branch_accepted, follow_list_cons, follow_list_singleton]

/-- An import goes on behind the names of a path. -/
theorem follow_useTree (hids : ids ≠ []) (h : ∀ id ∈ ids, id.IsPathWord) :
    follow (.phrase .useTree) (Token.path ids ++ (Token.op "::" ++ X)) =
      follow (.phrase .useTree) X := by
  obtain ⟨id, ids, rfl⟩ := List.exists_cons_of_ne_nil hids
  induction ids generalizing id with
  | nil => exact follow_useTree_cons (h id List.mem_cons_self)
  | cons next ids ih =>
    obtain ⟨hid, hrest⟩ := List.forall_mem_cons.mp h
    have heq : Token.path (id :: next :: ids) = .word id :: (Token.op "::" ++
        Token.path (next :: ids)) := rfl
    rw [heq, List.cons_append, List.append_assoc, follow_useTree_cons hid]
    exact ih next (by simp) hrest

end Source

end TaggedRows
