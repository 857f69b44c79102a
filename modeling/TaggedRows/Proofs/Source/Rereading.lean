import TaggedRows.Proofs.Source.Quoting

/-!
# Tokens that come from a text

Each token of a text that is read is read again from its own spelling, only the mark of a lifetime
needs the word behind it.

- **Tokens** (`Lexer.token?_cases`, `Lexer.isSpelled_of_literal?`, `Lexer.isWritten_of_anyWord?`).
- **Marks** (`Lexer.reads_mark`): a quote is no beginning of a character in front of a word, nor in
  front of any token that it was read in front of (`Lexer.marks_of_token?`).
- **Sequences** (`Lexer.AreLexed`, `Lexer.areLexed_of_lex?`).
-/

namespace TaggedRows.Lexer

variable {cs rest after : List Char} {t u : Token}

/-! ## Tokens -/

theorem delimiter?_eq_some {c : Char} (h : delimiter? c = some t) :
    ∃ d, t = .opening d ∨ t = .closing d := by
  unfold delimiter? at h
  split at h
  all_goals cases h
  all_goals first | exact ⟨_, .inl rfl⟩ | exact ⟨_, .inr rfl⟩

/-- What a token was read as. -/
theorem token?_cases (h : token? cs = some (t, rest)) :
    cs.head?.bind delimiter? = some t ∨
    cs.head?.bind delimiter? = none ∧
      ((∃ kind, literal? cs = some (kind, rest) ∧
          t = .literal ⟨kind, String.ofList (cs.take (cs.length - rest.length))⟩) ∨
        literal? cs = none ∧ (punct? cs = some (t, rest) ∨
          punct? cs = none ∧ ∃ id, t = .word id ∧ word? cs = some (id, rest))) := by
  unfold token? at h
  split at h
  · next hd =>
    cases h
    exact .inl hd
  next hd =>
  refine .inr ⟨hd, ?_⟩
  split at h
  · next kind later hl =>
    cases h
    exact .inl ⟨kind, hl, rfl⟩
  next hl =>
  refine .inr ⟨hl, ?_⟩
  cases hp : punct? cs with
  | some p =>
    rw [hp] at h
    exact .inl h
  | none =>
    rw [hp, Option.orElse_none] at h
    obtain ⟨⟨id, later⟩, hw, heq⟩ := Option.map_eq_some_iff.mp h
    cases heq
    exact .inr ⟨rfl, id, rfl, hw⟩

theorem isSpelled_of_literal? {kind : LiteralKind} (hblank : blank cs = .none)
    (hdelimiter : cs.head?.bind delimiter? = none) (h : literal? cs = some (kind, rest)) :
    IsSpelled (.literal ⟨kind, String.ofList (cs.take (cs.length - rest.length))⟩) := by
  obtain ⟨x, rfl, hne, hx⟩ := literal?_local h
  obtain ⟨c, x, rfl⟩ := List.exists_cons_of_ne_nil hne
  have htake : (c :: x ++ rest).take ((c :: x ++ rest).length - rest.length) = c :: x := by
    rw [List.length_append, Nat.add_sub_cancel, List.take_left]
  have hslash : c ≠ '/' := by
    rintro rfl
    rw [List.cons_append, literal?_punct (by decide) (by decide)] at h
    cases h
  have hspace : isSpace c = false := by
    rw [Bool.eq_false_iff]
    intro hs
    rw [List.cons_append] at hblank
    have hskip : blank (c :: (x ++ rest)) = .skipped (x ++ rest) := by
      unfold blank
      split
      all_goals first
        | next heq => exact absurd (List.cons.inj heq).1 hslash
        | next heq =>
          obtain ⟨rfl, rfl⟩ := List.cons.inj heq
          simp [hs]
        | next heq => cases heq
    rw [hskip] at hblank
    cases hblank
  rw [htake]
  intro after ha
  exact reads_literal String.toList_ofList hslash hspace hdelimiter
    (by rw [String.toList_ofList]; exact hx after ha)

theorem word?_eq_some {id : Ident} (h : word? cs = some (id, rest)) :
    anyWord? cs = some (id, rest) := by
  unfold word? at h
  split at h
  · cases h
  · exact h

/-- How a word is read. -/
theorem anyWord?_cases {id : Ident} (h : anyWord? cs = some (id, rest)) :
    (∃ more, cs = 'r' :: '#' :: more ∧ wordRest? more = some (id.name.toList, rest) ∧
      id.raw = true ∧ id.name ∉ Ident.unrawable) ∨
    (∀ more, cs ≠ 'r' :: '#' :: more) ∧ wordRest? cs = some (id.name.toList, rest) ∧
      id.raw = false := by
  unfold anyWord? at h
  split at h
  · next more =>
    obtain ⟨⟨w, later⟩, hw, hid⟩ := Option.bind_eq_some_iff.mp h
    dsimp only at hid
    split at hid
    · cases hid
    · next hraw =>
      cases hid
      refine .inl ⟨more, rfl, ?_, rfl, by simpa using hraw⟩
      rw [String.toList_ofList]
      exact hw
  · next hplain =>
    obtain ⟨⟨w, later⟩, hw, heq⟩ := Option.map_eq_some_iff.mp h
    cases heq
    refine .inr ⟨fun more => hplain more, ?_, rfl⟩
    rw [String.toList_ofList]
    exact hw

theorem start_of_anyWord? {id : Ident} (h : anyWord? cs = some (id, rest)) :
    ∃ c more, cs = c :: more ∧ Text.isIdentStart c = true := by
  obtain ⟨more, rfl, -⟩ | ⟨-, hw, -⟩ := anyWord?_cases h
  · exact ⟨_, _, rfl, by decide⟩
  · obtain ⟨⟨c, ds, hname, hc, -⟩, rfl, -⟩ := wordRest?_eq_some.mp hw
    exact ⟨c, ds ++ rest, by rw [hname]; rfl, hc⟩

theorem isWritten_of_anyWord? {id : Ident} (h : anyWord? cs = some (id, rest)) :
    id.IsWritten := by
  obtain ⟨more, rfl, hw, -, hraw⟩ | ⟨-, hw, hplain⟩ := anyWord?_cases h
  · exact ⟨(wordRest?_eq_some.mp hw).1, fun _ => hraw⟩
  · refine ⟨(wordRest?_eq_some.mp hw).1, fun hraw => ?_⟩
    rw [hplain] at hraw
    cases hraw

/-- Behind a quote and a word, the rest of the text ends a character, or goes on like a raw text. -/
def closes (cs later : List Char) : Bool :=
  later.head? = some '\'' || (later.head? = some '#' && !startsWith "r#" cs)

theorem punct?_cases (h : punct? cs = some (t, rest)) :
    (∃ c joint, t = .punct c joint ∧ isPunct c = true ∧ c ≠ '\'') ∨
    t = .punct '\'' true ∧ ∃ id later, anyWord? rest = some (id, later) ∧
      closes rest later = false := by
  obtain ⟨⟨c, later⟩, hchar, hpunct⟩ := Option.bind_eq_some_iff.mp h
  have hc : isPunct c = true := by
    unfold punctChar? at hchar
    split at hchar
    · cases hchar
    · cases hchar
    · split at hchar
      · next hc =>
        cases hchar
        exact hc
      · cases hchar
    · cases hchar
  dsimp only at hpunct
  split at hpunct
  · obtain ⟨⟨id, after⟩, hword, hrest⟩ := Option.bind_eq_some_iff.mp hpunct
    dsimp only at hrest
    split at hrest
    · cases hrest
    · next hnext =>
      cases hrest
      exact .inr ⟨rfl, id, after, hword, Bool.eq_false_iff.mpr hnext⟩
  · next hquote =>
    cases hpunct
    exact .inl ⟨c, _, rfl, hc, hquote⟩

/-- A token that is a word was read as one. -/
theorem word?_of_token? {id : Ident} (h : token? cs = some (.word id, rest)) :
    word? cs = some (id, rest) := by
  obtain hd | ⟨-, ⟨kind, -, heq⟩ | ⟨-, hp | ⟨-, id', heq, hword⟩⟩⟩ := token?_cases h
  · obtain ⟨c, -, hd⟩ := Option.bind_eq_some_iff.mp hd
    obtain ⟨d, heq | heq⟩ := delimiter?_eq_some hd <;> cases heq
  · cases heq
  · obtain ⟨c, joint, heq, -⟩ | ⟨heq, -⟩ := punct?_cases hp <;> cases heq
  · cases heq
    exact hword

/-- Where a word may begin, there is a word or a literal. -/
theorem token?_of_isIdentStart {c : Char} (hc : Text.isIdentStart c = true)
    (h : token? (c :: cs) = some (t, rest)) :
    (∃ kind, literal? (c :: cs) = some (kind, rest) ∧
      t = .literal ⟨kind, String.ofList ((c :: cs).take ((c :: cs).length - rest.length))⟩) ∨
    ∃ id, t = .word id ∧ word? (c :: cs) = some (id, rest) := by
  obtain hd | ⟨-, hliteral | ⟨-, hp | ⟨-, hword⟩⟩⟩ := token?_cases h
  · rw [List.head?_cons, Option.bind_some, delimiter?_of_isIdentStart hc] at hd
    cases hd
  · exact .inl hliteral
  · rw [punct?_none (isPunct_of_isIdentStart hc)] at hp
    cases hp
  · exact .inr hword

/-! ## Marks of lifetimes -/

/-- A quote in front of a word, where no character is quoted. -/
theorem reads_mark {id : Ident} {later : List Char} (hword : anyWord? rest = some (id, later))
    (hnext : closes rest later = false) (hchar : ∀ c more, rest ≠ c :: '\'' :: more) :
    Reads (.punct '\'' true) rest := by
  have hliteral : literal? ('\'' :: rest) = none := by
    change Option.map _ ((charBody? rest).bind (strip? ['\''])) = none
    rw [Option.map_eq_none_iff, Option.eq_none_iff_forall_ne_some]
    intro more hmore
    obtain ⟨body, hbody, hstrip⟩ := Option.bind_eq_some_iff.mp hmore
    obtain rfl := strip?_quote_eq_some.mp hstrip
    unfold charBody? at hbody
    split at hbody
    · obtain ⟨_, heq, -⟩ | ⟨-, hw, -⟩ := anyWord?_cases hword
      · cases heq
      · rw [wordRest?, if_neg (by decide)] at hw
        cases hw
    · cases hbody
      exact hchar _ _ rfl
    · cases hbody
  have hnoSlash : ∀ cs : List Char, '\'' = '/' → ∀ e, cs.head? = some e → e ≠ '/' ∧ e ≠ '*' :=
    fun _ h => absurd h (by decide)
  refine ⟨blank_punct (by decide) (hnoSlash rest), ?_⟩
  change token? ('\'' :: rest) = _
  unfold token?
  simp only [List.head?_cons, Option.bind_some, show delimiter? '\'' = none from rfl, hliteral]
  rw [punct?, punctChar?_eq (by decide) (hnoSlash rest), Option.bind_some]
  simp only [if_true, hword, Option.bind_some]
  rw [closes] at hnext
  rw [hnext]
  rfl

theorem reads_mark_word {w tail : List Char} (hw : IsWord w)
    (htail : ∀ c, tail.head? = some c → Text.isIdentContinue c = false ∧ c ≠ '\'' ∧ c ≠ '#') :
    Reads (.punct '\'' true) (w ++ tail) := by
  have hsecond : ∀ c, Text.isIdentContinue c = false → c = '\'' ∨ c = '#' → ∀ d more,
      w ++ tail ≠ d :: c :: more := by
    intro c hc hmark d more heq
    obtain ⟨d, ds, rfl, -, hds⟩ := hw
    have hnext := (List.cons.inj heq).2
    cases ds with
    | nil =>
      have hne := (htail c (by rw [show tail = c :: more from hnext]; rfl)).2
      rcases hmark with rfl | rfl
      · exact hne.1 rfl
      · exact hne.2 rfl
    | cons e ds =>
      have he := hds e List.mem_cons_self
      rw [(List.cons.inj hnext).1, hc] at he
      cases he
  have hword : anyWord? (w ++ tail) = some (⟨false, String.ofList w⟩, tail) := by
    unfold anyWord?
    split
    · next heq => exact absurd heq (hsecond '#' (by decide) (.inr rfl) _ _)
    · rw [wordRest?_eq_some.mpr ⟨hw, rfl, fun c hc => (htail c hc).1⟩]
      rfl
  refine reads_mark hword ?_ (hsecond '\'' (by decide) (.inl rfl))
  have hquote : tail.head? ≠ some '\'' := fun h => (htail _ h).2.1 rfl
  have hhash : tail.head? ≠ some '#' := fun h => (htail _ h).2.2 rfl
  simp [closes, hquote, hhash]

/-- The mark of a lifetime may stand in front of the token. -/
structure Marks (u : Token) : Prop where
  spelled : IsSpelled u
  mark : ∀ after, Ends after → Reads (.punct '\'' true) (u.chars ++ after)

theorem marks_word {id : Ident} (h : id.IsWritten) : Marks (.word id) := by
  refine ⟨isSpelled_word h, fun after ha => ?_⟩
  obtain ⟨raw, name⟩ := id
  obtain ⟨hw, hraw⟩ := h
  cases raw with
  | false =>
    change Reads _ (name.toList ++ after)
    refine reads_mark_word hw fun c hc => ⟨ha.not_isIdentContinue c hc, ?_⟩
    rcases ha c hc with rfl | rfl | rfl <;> decide
  | true =>
    have hword := word?_eq_some (word?_raw hw (by rw [String.ofList_toList]; exact hraw rfl) ha)
    have hchars : (Token.word ⟨true, name⟩).chars = 'r' :: '#' :: name.toList := by
      simp [Token.chars, Ident.text]
    rw [hchars]
    refine reads_mark hword ?_ fun c more heq => ?_
    · have hquote : after.head? ≠ some '\'' := fun h => by
        rcases ha _ h with h | h | h <;> cases h
      simp [closes, hquote, startsWith]
    · cases heq

/-- A token that was read behind the mark of a lifetime may stand behind one. -/
theorem marks_of_token? {later : List Char} {id : Ident} (hword : anyWord? rest = some (id, later))
    (hnext : closes rest later = false) (hblank : blank rest = .none)
    (h : token? rest = some (u, cs)) : Marks u := by
  obtain ⟨c, more, rfl, hc⟩ := start_of_anyWord? hword
  obtain ⟨kind, hliteral, rfl⟩ | ⟨id', rfl, hw⟩ := token?_of_isIdentStart hc h
  · refine ⟨isSpelled_of_literal? hblank (delimiter?_of_isIdentStart hc) hliteral,
      fun after ha => ?_⟩
    obtain ⟨x, hx, hne, hlocal⟩ := literal?_local hliteral
    rw [hx] at hword hnext
    have hchars : (Token.literal ⟨kind, String.ofList
        ((c :: more).take ((c :: more).length - cs.length))⟩).chars = x := by
      rw [hx, List.length_append, Nat.add_sub_cancel, List.take_left]
      exact String.toList_ofList
    rw [hchars]
    have hnotWord : ¬ IsWord x := fun hword => by
      have hnone : literal? (x ++ []) = none := literal?_word hword (by simp [Ends])
      rw [hlocal [] (by simp [Ends])] at hnone
      cases hnone
    obtain ⟨raw, heq, hraw, -⟩ | ⟨hplain, hw, -⟩ := anyWord?_cases hword
    · -- No literal begins where a raw word does.
      obtain ⟨hisWord, rfl, -⟩ := wordRest?_eq_some.mp hraw
      rw [hx, heq, literal?_raw hisWord] at hliteral
      cases hliteral
    · obtain ⟨hisWord, heq, hend⟩ := wordRest?_eq_some.mp hw
      obtain ⟨y, rfl, rfl⟩ | ⟨y, hword', -⟩ := List.append_eq_append_iff.mp heq.symm
      · cases y with
        | nil => exact absurd (by simpa using hisWord) hnotWord
        | cons d y =>
          have hd := hend d rfl
          have hmark : d ≠ '\'' ∧ d ≠ '#' := by
            have hlead : startsWith "r#" (id.name.toList ++ d :: y ++ cs) = false := by
              rw [Bool.eq_false_iff]
              intro hstart
              obtain ⟨raw, hraw⟩ := List.isPrefixOf_iff_prefix.mp hstart
              exact hplain raw (by rw [← hraw]; rfl)
            rw [closes, hlead] at hnext
            simpa using hnext
          rw [List.append_assoc]
          refine reads_mark_word hisWord fun e he => ?_
          obtain rfl : d = e := Option.some.inj he
          exact ⟨hd, hmark⟩
      · obtain ⟨d, ds, hname, hd, hds⟩ := hisWord
        obtain ⟨e, es, rfl⟩ := List.exists_cons_of_ne_nil hne
        rw [hword', List.cons_append] at hname
        obtain ⟨rfl, rfl⟩ := List.cons.inj hname
        exact absurd ⟨e, es, rfl, hd, fun f hf => hds f (List.mem_append_left _ hf)⟩ hnotWord
  · exact marks_word (isWritten_of_anyWord? (word?_eq_some hw))

/-! ## Sequences -/

/-- Tokens that come from a text. Each is read again from its own spelling; of punctuation that
holds without the joints, and the mark of a lifetime stands in front of something that it marks. -/
inductive AreLexed : List Token → Prop where
  | nil : AreLexed []
  | spelled {t : Token} {ts : List Token} (plain : ∀ c joint, t ≠ .punct c joint)
      (spelled : IsSpelled t) (later : AreLexed ts) : AreLexed (t :: ts)
  | punct {c : Char} {joint : Bool} {ts : List Token} (isPunct : isPunct c = true)
      (unquoted : c ≠ '\'') (later : AreLexed ts) : AreLexed (.punct c joint :: ts)
  | mark {u : Token} {ts : List Token} (plain : ∀ c joint, u ≠ .punct c joint) (marks : Marks u)
      (later : AreLexed ts) : AreLexed (.punct '\'' true :: u :: ts)

theorem AreLexed.append {as bs : List Token} (ha : AreLexed as) (hb : AreLexed bs) :
    AreLexed (as ++ bs) := by
  induction ha with
  | nil => exact hb
  | spelled plain spelled _ ih => exact .spelled plain spelled ih
  | punct isPunct unquoted _ ih => exact .punct isPunct unquoted ih
  | mark plain marks _ ih => exact .mark plain marks ih

/-- The name is a word. -/
def isWordName (name : String) : Bool :=
  name.toList.head?.any Text.isIdentStart && name.toList.all Text.isIdentContinue

theorem isWritten_plain {name : String} (h : isWordName name = true) :
    (Ident.plain name).IsWritten := by
  obtain ⟨hstart, hall⟩ := Bool.and_eq_true_iff.mp h
  refine ⟨?_, fun hraw => by cases hraw⟩
  change IsWord name.toList
  cases hname : name.toList with
  | nil =>
    rw [hname] at hstart
    cases hstart
  | cons c cs =>
    rw [hname] at hstart hall
    refine ⟨c, cs, rfl, hstart, fun d hd => ?_⟩
    exact List.all_eq_true.mp hall d (List.mem_cons_of_mem c hd)

theorem areLexed_doc (c : DocComment) : AreLexed c.tokens := by
  obtain ⟨inner, text⟩ := c
  have hdoc : AreLexed [.opening .bracket, .kw "doc", .punct '=' false, .str (String.ofList text),
      .closing .bracket] :=
    .spelled nofun (fun after _ => isSpelled_opening .bracket after) <|
    .spelled nofun (isSpelled_word (isWritten_plain (by decide))) <|
    .punct (by decide) (by decide) <|
    .spelled nofun (isSpelled_str _) <|
    .spelled nofun (fun after _ => isSpelled_closing .bracket after) .nil
  cases inner with
  | false => exact .punct (by decide) (by decide) hdoc
  | true => exact .punct (by decide) (by decide) (.punct (by decide) (by decide) hdoc)

theorem blank_of_isIdentStart {c : Char} (h : Text.isIdentStart c = true) (cs : List Char) :
    blank (c :: cs) = .none :=
  blank_of_not_space (ne_of_isIdentStart h (by decide)) (isSpace_of_isIdentStart h) cs

/-- The token behind the mark of a lifetime. -/
theorem AreLexed.of_mark {later : List Char} {id : Ident} {ts : List Token} {fuel : Nat}
    (hword : anyWord? rest = some (id, later)) (hnext : closes rest later = false)
    (h : tokens fuel rest = some ts) (hts : AreLexed ts) : AreLexed (.punct '\'' true :: ts) := by
  obtain ⟨c, more, rfl, hc⟩ := start_of_anyWord? hword
  have hblank := blank_of_isIdentStart hc more
  cases fuel with
  | zero => cases h
  | succ fuel =>
    rw [tokens, hblank] at h
    · obtain ⟨⟨u, cs⟩, hu, hmap⟩ := Option.bind_eq_some_iff.mp h
      obtain ⟨us, -, rfl⟩ := Option.map_eq_some_iff.mp hmap
      have hplain : ∀ d joint, u ≠ .punct d joint := by
        rintro d joint rfl
        obtain ⟨_, -, heq⟩ | ⟨_, heq, -⟩ := token?_of_isIdentStart hc hu <;> cases heq
      have hlater : AreLexed us := by
        cases hts with
        | spelled _ _ later => exact later
        | punct => exact absurd rfl (hplain _ _)
        | mark => exact absurd rfl (hplain _ _)
      exact .mark hplain (marks_of_token? hword hnext hblank hu) hlater
    · simp

theorem areLexed_of_tokens {fuel : Nat} {ts : List Token} (h : tokens fuel cs = some ts) :
    AreLexed ts := by
  induction fuel generalizing cs ts with
  | zero =>
    cases cs with
    | nil =>
      cases h
      exact .nil
    | cons => cases h
  | succ fuel ih =>
    cases cs with
    | nil =>
      cases h
      exact .nil
    | cons c cs =>
    rw [tokens] at h
    · split at h
      · exact ih h
      · split at h
        · obtain ⟨more, hmore, rfl⟩ := Option.map_eq_some_iff.mp h
          exact (areLexed_doc _).append (ih hmore)
        · cases h
      · cases h
      · next hblank =>
        obtain ⟨⟨t, rest⟩, ht, hmap⟩ := Option.bind_eq_some_iff.mp h
        obtain ⟨more, hmore, rfl⟩ := Option.map_eq_some_iff.mp hmap
        have hlater := ih hmore
        obtain hd | ⟨hd, ⟨kind, hliteral, rfl⟩ | ⟨-, hp | ⟨-, id, rfl, hw⟩⟩⟩ := token?_cases ht
        · obtain ⟨d, rfl | rfl⟩ := delimiter?_eq_some hd
          · exact .spelled nofun (fun after _ => isSpelled_opening d after) hlater
          · exact .spelled nofun (fun after _ => isSpelled_closing d after) hlater
        · exact .spelled nofun (isSpelled_of_literal? hblank hd hliteral) hlater
        · obtain ⟨c, joint, rfl, hc, hquote⟩ | ⟨rfl, id, later, hword, hnext⟩ := punct?_cases hp
          · exact .punct hc hquote hlater
          · exact .of_mark hword hnext hmore hlater
        · exact .spelled nofun (isSpelled_word (isWritten_of_anyWord? (word?_eq_some hw))) hlater
    · simp

theorem areLexed_of_lex? {text : String} {ts : List Token} (h : Token.lex? text = some ts) :
    AreLexed ts := by
  obtain ⟨more, hmore, hts⟩ := Option.bind_eq_some_iff.mp h
  obtain ⟨-, -, hpure⟩ := Option.bind_eq_some_iff.mp hts
  cases hpure
  exact areLexed_of_tokens hmore

end TaggedRows.Lexer
