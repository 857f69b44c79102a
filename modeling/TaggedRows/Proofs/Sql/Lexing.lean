import TaggedRows.Proofs.Text.Digits
import TaggedRows.Sql.Token

/-!
# Names in the text of a statement

A text that is one name by itself is the same name in front of a blank, a comma, a parenthesis or an
equals sign. So a statement that is put together from such names is cut where it was joined.

- **Names** (`Token.IsToken`, `Token.Next.named`): the token of a name goes as far as the name.
- **Commas in names** (`Token.IsToken.marked`): a name with a comma stands in quotes or brackets,
  and stays one token with something before every comma.
- **Between names** (`Token.Next.blank`, `Token.Next.sign`, `Token.Next.parameter`): blanks are
  dropped, and the signs between names are tokens of their own.
-/

namespace TaggedRows.Sql.Token

/-! ## What follows a name -/

/-- The text is empty or goes on with a character that ends every name. -/
def Breaks (rest : List Char) : Prop :=
  ∀ c, rest.head? = some c → c ∈ [' ', ',', '(', ')', '=']

theorem Breaks.head?_ne {rest : List Char} (h : Breaks rest) {d : Char}
    (hd : d ∉ [' ', ',', '(', ')', '=']) : rest.head? ≠ some d :=
  fun he => hd (h d he)

theorem Breaks.not_isNameChar {rest : List Char} (h : Breaks rest) :
    ∀ c, rest.head? = some c → isNameChar c = false := by
  intro c hc
  have hm := h c hc
  simp only [List.mem_cons, List.not_mem_nil, or_false] at hm
  rcases hm with rfl | rfl | rfl | rfl | rfl <;> decide

theorem breaks_nil : Breaks [] := fun c h => by simp at h

theorem breaks_cons {c : Char} (h : c ∈ [' ', ',', '(', ')', '=']) (rest : List Char) :
    Breaks (c :: rest) := fun d hd => by
  simp only [List.head?_cons, Option.some.injEq] at hd
  exact hd ▸ h

/-- What is taken as long as a condition holds stops where the condition fails. -/
theorem takeWhile_append_of_all {p : Char → Bool} {cs rest : List Char} (hc : ∀ c ∈ cs, p c = true)
    (hr : ∀ c, rest.head? = some c → p c = false) : (cs ++ rest).takeWhile p = cs := by
  rw [List.takeWhile_append_of_pos hc]
  cases rest with
  | nil => simp
  | cons c rest => simp [hr c rfl]

/-- A condition holds of a whole text where nothing is left behind what it takes. -/
theorem all_of_length_takeWhile {p : Char → Bool} {cs : List Char}
    (h : cs.length ≤ (cs.takeWhile p).length) : ∀ c ∈ cs, p c = true := by
  have he : cs.takeWhile p = cs := (List.takeWhile_prefix p).eq_of_length_le h
  intro c hc
  rw [← he] at hc
  exact List.all_eq_true.mp List.all_takeWhile c hc

/-- What is left behind the characters that satisfy a condition begins with one that does not. -/
theorem eq_of_length_takeWhile {p : Char → Bool} {cs : List Char}
    (h : (cs.takeWhile p).length < cs.length) (h1 : cs.length ≤ (cs.takeWhile p).length + 1) :
    (∀ c ∈ cs.takeWhile p, p c = true) ∧ ∃ d, p d = false ∧ cs = cs.takeWhile p ++ [d] := by
  refine ⟨List.all_eq_true.mp List.all_takeWhile, ?_⟩
  induction cs with
  | nil => simp at h
  | cons c cs ih =>
    by_cases hc : p c = true
    · simp only [List.takeWhile_cons_of_pos hc, List.length_cons] at h h1 ⊢
      obtain ⟨d, hd, he⟩ := ih (by omega) (by omega)
      exact ⟨d, hd, congrArg (c :: ·) he⟩
    · simp only [List.takeWhile_cons_of_neg hc, List.length_cons, List.length_nil] at h1 ⊢
      have hcs : cs = [] := List.length_eq_zero_iff.mp (by omega)
      exact ⟨c, by simpa using hc, by rw [hcs]; rfl⟩

/-! ## The tokens of names -/

/-- The token may name something. -/
def IsNaming : Token → Prop
  | .word _ | .quoted _ _ | .text _ => True
  | _ => False

theorem itemAt_quote {c : Char} {rest : List Char} (hc : c = '\'' ∨ c = '"' ∨ c = '\x60') :
    itemAt c rest = (some (quotedToken c rest).1, (quotedToken c rest).2) := by
  rcases hc with rfl | rfl | rfl <;> rfl

theorem itemAt_bracket (rest : List Char) :
    itemAt '[' rest =
      if (rest.takeWhile (· ≠ ']')).length < rest.length then
        (some (.quoted (String.ofList (rest.takeWhile (· ≠ ']'))) false),
          (rest.takeWhile (· ≠ ']')).length + 1)
      else (some .illegal, rest.length) := by
  simp only [itemAt]
  simp [isSpace]
  split <;> rfl

theorem isNameStart_ne {c d : Char} (h : isNameStart c = true) (hd : isNameStart d = false) :
    c ≠ d := by
  rintro rfl
  simp [h] at hd

theorem isSpace_of_isNameStart {c : Char} (h : isNameStart c = true) (hf : c ≠ '\ufeff') :
    isSpace c = false := by
  have h1 := isNameStart_ne (d := ' ') h (by decide)
  have h2 := isNameStart_ne (d := '\t') h (by decide)
  have h3 := isNameStart_ne (d := '\n') h (by decide)
  have h4 := isNameStart_ne (d := '\x0c') h (by decide)
  have h5 := isNameStart_ne (d := '\x0d') h (by decide)
  simp [isSpace, h1, h2, h3, h4, h5, hf]

theorem isDigit_of_isNameStart {c : Char} (h : isNameStart c = true) : c.isDigit = false := by
  have hdigits : Text.digitChars.all (fun d => !isNameStart d) = true := by decide
  rw [Bool.eq_false_iff]
  intro hc
  have hnot := Text.of_isDigit hdigits hc
  rw [h] at hnot
  cases hnot

theorem itemAt_word {c : Char} {rest : List Char} (hc : isNameStart c = true) (hf : c ≠ '\ufeff')
    (hx : ¬ ((c = 'x' ∨ c = 'X') ∧ rest.head? = some '\'')) :
    itemAt c rest = (some (wordToken c rest).1, (wordToken c rest).2) := by
  have hx' : ((c = 'x' || c = 'X') && rest.head? = some '\'') = false := by
    rw [Bool.eq_false_iff]
    intro hb
    exact hx (by simpa using hb)
  have hd := isDigit_of_isNameStart hc
  have h1 := isNameStart_ne (d := '-') hc (by decide)
  have h2 := isNameStart_ne (d := '/') hc (by decide)
  have h3 := isNameStart_ne (d := '\'') hc (by decide)
  have h4 := isNameStart_ne (d := '"') hc (by decide)
  have h5 := isNameStart_ne (d := '\x60') hc (by decide)
  have h6 := isNameStart_ne (d := '[') hc (by decide)
  have h7 := isNameStart_ne (d := '.') hc (by decide)
  have h8 := isNameStart_ne (d := '?') hc (by decide)
  have h9 := isNameStart_ne (d := ':') hc (by decide)
  have h10 := isNameStart_ne (d := '@') hc (by decide)
  have h11 := isNameStart_ne (d := '$') hc (by decide)
  have h12 := isNameStart_ne (d := '#') hc (by decide)
  unfold itemAt
  rw [hx']
  simp [isSpace_of_isNameStart hc hf, hc, hd, h1, h2, h3, h4, h5, h6, h7, h8, h9, h10, h11, h12]

theorem not_isNaming_number (cs : List Char) : ¬ (number cs).1.IsNaming := by
  unfold number
  simp only
  repeat' split
  all_goals simp [IsNaming]

theorem not_isNaming_blobToken (cs : List Char) : ¬ (blobToken cs).1.IsNaming := by
  unfold blobToken
  simp only
  repeat' split
  all_goals simp [IsNaming]

/-- A token that may name something is a word or stands in quotes or brackets. -/
theorem itemAt_isNaming {c : Char} {rest : List Char} {token : Token}
    (h : (itemAt c rest).1 = some token) (ht : token.IsNaming) :
    (c = '\'' ∨ c = '"' ∨ c = '\x60') ∨ c = '[' ∨
      (isNameStart c = true ∧ c ≠ '\ufeff' ∧ ¬ ((c = 'x' ∨ c = 'X') ∧ rest.head? = some '\'')) := by
  by_cases hq : (c = '\'' || c = '"' || c = '\x60') = true
  · exact .inl (by simpa [or_assoc] using hq)
  by_cases hb : c = '['
  · exact .inr (.inl hb)
  by_cases hx : ((c = 'x' || c = 'X') && rest.head? = some '\'') = true
  · have hbad : (itemAt c rest).1 = some (blobToken (rest.drop 1)).1 := by
      have hc : c = 'x' ∨ c = 'X' := by simpa using (Bool.and_eq_true_iff.mp hx).1
      unfold itemAt
      rw [if_pos hx]
      rcases hc with rfl | rfl <;> rfl
    rw [Option.some.inj (h.symm.trans hbad)] at ht
    exact absurd ht (not_isNaming_blobToken _)
  by_cases hn : isNameStart c = true
  · refine .inr (.inr ⟨hn, ?_, by simpa using hx⟩)
    rintro rfl
    cases h
  unfold itemAt at h
  rw [if_neg hq, if_neg hb, if_neg hx, if_neg hn] at h
  -- what is left begins with a blank, a comment, a digit, a mark of a parameter or a sign
  by_cases hs : isSpace c = true
  · rw [if_pos hs] at h
    cases h
  rw [if_neg hs] at h
  split at h
  · cases h
  split at h
  · cases h
  obtain rfl := Option.some.inj h
  split at ht
  · exact absurd ht (not_isNaming_number _)
  split at ht
  · exact ht.elim
  split at ht
  · dsimp only at ht
    split at ht <;> exact ht.elim
  · split at ht <;> exact ht.elim

/-! ## A name by itself -/

/-- The text is one token that may name something. -/
structure IsToken (cs : List Char) (token : Token) : Prop where
  lexemes_eq : lexemes cs = [⟨token, cs, []⟩]
  isNaming : token.IsNaming

theorem lexemes_cons (c : Char) (rest : List Char) :
    lexemes (c :: rest) =
      match (itemAt c rest).1 with
      | none => lexemes (rest.drop (itemAt c rest).2)
      | some token => ⟨token, c :: rest, rest.drop (itemAt c rest).2⟩ ::
          lexemes (rest.drop (itemAt c rest).2) := by
  refine (lexemes.eq_2 c rest).trans ?_
  cases (itemAt c rest).1 <;> rfl

theorem length_start_le {cs : List Char} {l : Lexeme} (h : l ∈ lexemes cs) :
    l.start.length ≤ cs.length := by
  fun_induction lexemes cs with
  | case1 => simp at h
  | case2 c rest stop hi ih =>
    have hl := ih h
    have hs : stop.length ≤ rest.length := by simp [stop]
    simp only [List.length_cons]
    omega
  | case3 c rest stop token hi ih =>
    rcases List.mem_cons.mp h with rfl | h
    · simp
    · have hl := ih h
      have hs : stop.length ≤ rest.length := by simp [stop]
      simp only [List.length_cons]
      omega

theorem IsToken.exists_cons {cs : List Char} {token : Token} (h : IsToken cs token) :
    ∃ c body, cs = c :: body ∧ (itemAt c body).1 = some token ∧
      body.length ≤ (itemAt c body).2 := by
  cases cs with
  | nil =>
    have he := h.lexemes_eq
    simp [lexemes] at he
  | cons c body =>
    refine ⟨c, body, rfl, ?_⟩
    have he := h.lexemes_eq
    rw [lexemes_cons] at he
    split at he
    · have hm : (⟨token, c :: body, []⟩ : Lexeme) ∈ lexemes (body.drop (itemAt c body).2) := by
        rw [he]
        exact List.mem_singleton.mpr rfl
      have hl := length_start_le hm
      simp only [List.length_cons, List.length_drop] at hl
      omega
    · next token' hi =>
      simp only [List.cons.injEq, Lexeme.mk.injEq, true_and] at he
      exact ⟨he.1.1 ▸ hi, List.drop_eq_nil_iff.mp he.1.2⟩

/-- A word by itself. -/
theorem isToken_word {c : Char} {body : List Char} (hc : isNameStart c = true) (hf : c ≠ '\ufeff')
    (hb : body.all isNameChar = true) :
    IsToken (c :: body) (.word (String.ofList (c :: body))) where
  lexemes_eq := by
    have hx : ¬ ((c = 'x' ∨ c = 'X') ∧ body.head? = some '\'') := by
      rintro ⟨-, hh⟩
      have hq := List.all_eq_true.mp hb '\'' (List.mem_of_mem_head? hh)
      exact absurd hq (by decide)
    have hw : body.takeWhile isNameChar = body := by
      have ht := takeWhile_append_of_all (List.all_eq_true.mp hb) breaks_nil.not_isNameChar
      rwa [List.append_nil] at ht
    rw [lexemes_cons, itemAt_word hc hf hx]
    simp [wordToken, hw, lexemes]
  isNaming := trivial

theorem quotedContent?_append {quote : Char} {body content : List Char} {n : Nat}
    (h : quotedContent? quote body = some (content, n)) (hn : body.length ≤ n) {rest : List Char}
    (hr : rest.head? ≠ some quote) :
    quotedContent? quote (body ++ rest) = some (content, n) ∧ n = body.length := by
  fun_induction quotedContent? quote body generalizing content n with
  | case1 => cases h
  | case2 =>
    cases h
    refine ⟨?_, rfl⟩
    cases rest with
    | nil => simp [quotedContent?]
    | cons d rest =>
      have hd : d ≠ quote := by simpa using hr
      simp [quotedContent?, hd]
  | case3 c hc => cases h
  | case4 rest' ih =>
    obtain ⟨⟨content', n'⟩, hq, he⟩ := Option.map_eq_some_iff.mp h
    cases he
    obtain ⟨ha, hl⟩ := ih hq (by simp only [List.length_cons] at hn; omega)
    refine ⟨?_, by simp [hl]⟩
    simp [quotedContent?, ha]
  | case5 d rest' hd =>
    cases h
    simp at hn
  | case6 c d rest' hc ih =>
    obtain ⟨⟨content', n'⟩, hq, he⟩ := Option.map_eq_some_iff.mp h
    cases he
    obtain ⟨ha, hl⟩ := ih hq (by simp only [List.length_cons] at hn ⊢; omega)
    refine ⟨?_, by simp [hl]⟩
    rw [List.cons_append, List.cons_append, quotedContent?, if_neg hc, ← List.cons_append, ha]
    rfl

/-- The first token of a longer text is the name that it begins with. -/
theorem itemAt_append {c : Char} {body rest : List Char} {token : Token}
    (h : (itemAt c body).1 = some token) (hn : body.length ≤ (itemAt c body).2)
    (ht : token.IsNaming) (hr : Breaks rest) :
    itemAt c (body ++ rest) = (some token, body.length) := by
  obtain hq | rfl | ⟨hc, hf, hx⟩ := itemAt_isNaming h ht
  · have hne : rest.head? ≠ some c := by
      rcases hq with rfl | rfl | rfl <;> exact hr.head?_ne (by decide)
    rw [itemAt_quote hq] at h hn ⊢
    simp only [Option.some.injEq] at h
    subst h
    unfold quotedToken at hn ht ⊢
    cases hb : quotedContent? c body with
    | none => simp [hb, IsNaming] at ht
    | some p =>
      obtain ⟨content, n⟩ := p
      have hle : body.length ≤ n := by
        simp only [hb] at hn
        split at hn <;> exact hn
      obtain ⟨ha, rfl⟩ := quotedContent?_append hb hle hne
      simp only [ha]
      split <;> rfl
  · rw [itemAt_bracket] at h hn ⊢
    by_cases hlt : (body.takeWhile (· ≠ ']')).length < body.length
    · rw [if_pos hlt] at h hn
      obtain ⟨hin, d, hd, hb⟩ := eq_of_length_takeWhile hlt hn
      have hw : (body ++ rest).takeWhile (· ≠ ']') = body.takeWhile (· ≠ ']') := by
        conv => lhs; rw [hb, List.append_assoc]
        exact takeWhile_append_of_all hin fun c hc => Option.some.inj hc ▸ hd
      have hl : body.length = (body.takeWhile (· ≠ ']')).length + 1 := by omega
      simp only [hw, List.length_append]
      rw [if_pos (by omega), ← hl]
      exact congrArg (·, body.length) h
    · rw [if_neg hlt] at h
      cases h
      exact ht.elim
  · rw [itemAt_word hc hf hx] at h hn
    have hin := all_of_length_takeWhile hn
    have hx' : ¬ ((c = 'x' ∨ c = 'X') ∧ (body ++ rest).head? = some '\'') := by
      rintro ⟨-, hh⟩
      cases body with
      | nil => exact hr.head?_ne (by decide) hh
      | cons d body =>
        cases hh
        exact absurd (hin '\'' (List.mem_cons_self ..)) (by decide)
    have hself : body.takeWhile isNameChar = body := by
      have ht := takeWhile_append_of_all hin breaks_nil.not_isNameChar
      rwa [List.append_nil] at ht
    rw [itemAt_word hc hf hx', ← h]
    simp only [wordToken, takeWhile_append_of_all hin hr.not_isNameChar, hself]

theorem isToken_of_itemAt {c : Char} {body : List Char} {token : Token}
    (h : itemAt c body = (some token, body.length)) (ht : token.IsNaming) :
    IsToken (c :: body) token where
  lexemes_eq := by
    rw [lexemes_cons, h]
    simp [lexemes]
  isNaming := ht

/-! ## Commas in names -/

/-- The text with an equals sign and a question mark before every comma. -/
def marked (cs : List Char) : List Char :=
  cs.flatMap fun c => if c = ',' then ['=', '?', ','] else [c]

theorem marked_cons_of_ne {c : Char} (hc : c ≠ ',') (cs : List Char) :
    marked (c :: cs) = c :: marked cs := by
  rw [marked, List.flatMap_cons, if_neg hc]
  rfl

theorem marked_of_notMem {cs : List Char} (h : ',' ∉ cs) : marked cs = cs := by
  induction cs with
  | nil => rfl
  | cons c cs ih =>
    obtain ⟨hc, hcs⟩ := List.ne_and_not_mem_of_not_mem_cons h
    rw [marked_cons_of_ne hc.symm, ih hcs]

theorem marked_append (as bs : List Char) : marked (as ++ bs) = marked as ++ marked bs :=
  List.flatMap_append

/-- What a condition holds of is not changed by the marks if it holds of them too. -/
theorem all_marked {p : Char → Bool} (hp : p '=' = true ∧ p '?' = true) {cs : List Char}
    (h : ∀ c ∈ cs, p c = true) : ∀ c ∈ marked cs, p c = true := by
  intro c hc
  obtain ⟨d, hd, hm⟩ := List.mem_flatMap.mp hc
  split at hm
  · next he =>
    simp only [List.mem_cons, List.not_mem_nil, or_false] at hm
    rcases hm with rfl | rfl | rfl
    · exact hp.1
    · exact hp.2
    · exact h _ (he ▸ hd)
  · exact List.mem_singleton.mp hm ▸ h d hd

theorem quotedContent?_cons_of_ne {quote c : Char} (hc : c ≠ quote) (rest : List Char) :
    quotedContent? quote (c :: rest) =
      (quotedContent? quote rest).map fun (cs, n) => (c :: cs, n + 1) := by
  cases rest with
  | nil => simp [quotedContent?, hc]
  | cons d rest => rw [quotedContent?, if_neg hc]

/-- The marks become part of the content of a quote. -/
theorem quotedContent?_marked {quote : Char} (hq : quote ∉ [',', '=', '?'])
    {body content : List Char} {n : Nat} (h : quotedContent? quote body = some (content, n))
    (hn : body.length ≤ n) :
    quotedContent? quote (marked body) = some (marked content, (marked body).length) := by
  simp only [List.mem_cons, List.not_mem_nil, or_false, not_or] at hq
  obtain ⟨hcomma, hequals, hmark⟩ := hq
  fun_induction quotedContent? quote body generalizing content n with
  | case1 => cases h
  | case2 =>
    cases h
    rw [marked_cons_of_ne hcomma]
    simp [marked, quotedContent?]
  | case3 c hc => cases h
  | case4 rest ih =>
    obtain ⟨⟨content', n'⟩, hrest, he⟩ := Option.map_eq_some_iff.mp h
    cases he
    have ha := ih hrest (by simp only [List.length_cons] at hn; omega)
    simp [marked_cons_of_ne hcomma, quotedContent?, ha]
  | case5 d rest hd =>
    cases h
    simp at hn
  | case6 c d rest hc ih =>
    obtain ⟨⟨content', n'⟩, hrest, he⟩ := Option.map_eq_some_iff.mp h
    cases he
    have ha := ih hrest (by simp only [List.length_cons] at hn ⊢; omega)
    by_cases hsep : c = ','
    · subst hsep
      have hm : ∀ cs, marked (',' :: cs) = '=' :: '?' :: ',' :: marked cs := fun _ => rfl
      rw [hm, hm, quotedContent?_cons_of_ne (Ne.symm hequals),
        quotedContent?_cons_of_ne (Ne.symm hmark),
        quotedContent?_cons_of_ne hc, ha]
      simp
    · rw [marked_cons_of_ne hsep, marked_cons_of_ne hsep, quotedContent?_cons_of_ne hc, ha]
      simp

/-- Between quotes there is one token, which is no word. -/
theorem exists_isToken_quoted {c : Char} {body content : List Char}
    (hq : c = '\'' ∨ c = '"' ∨ c = '\x60')
    (h : quotedContent? c body = some (content, body.length)) :
    ∃ token, IsToken (c :: body) token ∧ ∀ w, token ≠ .word w := by
  have hitem : itemAt c body = (some (quotedToken c body).1, (quotedToken c body).2) :=
    itemAt_quote hq
  rw [quotedToken, h] at hitem
  dsimp only at hitem
  split at hitem
  · exact ⟨_, isToken_of_itemAt hitem trivial, nofun⟩
  · exact ⟨_, isToken_of_itemAt hitem trivial, nofun⟩

/-- Between brackets there is one token, which is no word. -/
theorem exists_isToken_bracketed {content : List Char}
    (h : ∀ c ∈ content, decide (c ≠ ']') = true) :
    ∃ token, IsToken ('[' :: (content ++ [']'])) token ∧ ∀ w, token ≠ .word w := by
  have hw : (content ++ [']']).takeWhile (· ≠ ']') = content :=
    takeWhile_append_of_all h fun c hc => by simpa using (Option.some.inj hc).symm
  have hitem := itemAt_bracket (content ++ [']'])
  rw [hw, List.length_append, List.length_singleton, if_pos (Nat.lt_succ_self _)] at hitem
  have hlength : content.length + 1 = (content ++ [']']).length := by simp
  rw [hlength] at hitem
  exact ⟨_, isToken_of_itemAt hitem trivial, nofun⟩

/-- A name in quotes or brackets stays one token with the marks, and a word has no commas. -/
theorem IsToken.marked {cs : List Char} {token : Token} (h : IsToken cs token) :
    Token.marked cs = cs ∨ ∃ token', IsToken (Token.marked cs) token' ∧ ∀ w, token' ≠ .word w := by
  obtain ⟨c, body, rfl, hi, hn⟩ := h.exists_cons
  obtain hq | rfl | ⟨hc, hf, hx⟩ := itemAt_isNaming hi h.isNaming
  · have hne : c ∉ [',', '=', '?'] := by rcases hq with rfl | rfl | rfl <;> decide
    have hcomma : c ≠ ',' := fun he => hne (he ▸ List.mem_cons_self ..)
    rw [itemAt_quote hq] at hi hn
    obtain rfl := Option.some.inj hi
    have hnaming := h.isNaming
    unfold quotedToken at hn hnaming
    cases hb : quotedContent? c body with
    | none => simp [hb, IsNaming] at hnaming
    | some p =>
      obtain ⟨content, n⟩ := p
      have hle : body.length ≤ n := by
        simp only [hb] at hn
        split at hn <;> exact hn
      rw [marked_cons_of_ne hcomma]
      exact .inr (exists_isToken_quoted hq (quotedContent?_marked hne hb hle))
  · rw [itemAt_bracket] at hi hn
    by_cases hlt : (body.takeWhile (· ≠ ']')).length < body.length
    · rw [if_pos hlt] at hn
      obtain ⟨hin, d, hd, hb⟩ := eq_of_length_takeWhile hlt hn
      obtain rfl : d = ']' := by simpa using hd
      have hbody : Token.marked body = Token.marked (body.takeWhile (· ≠ ']')) ++ [']'] := by
        conv => lhs; rw [hb, marked_append]
        rfl
      rw [marked_cons_of_ne (by decide), hbody]
      exact .inr (exists_isToken_bracketed (all_marked (by decide) hin))
    · rw [if_neg hlt] at hi
      obtain rfl := Option.some.inj hi
      exact h.isNaming.elim
  · rw [itemAt_word hc hf hx] at hn
    have hin := all_of_length_takeWhile hn
    refine .inl (marked_of_notMem fun hm => ?_)
    rcases List.mem_cons.mp hm with rfl | hm
    · exact absurd hc (by decide)
    · exact absurd (hin _ hm) (by decide)

/-! ## Names in a text -/

/-- The next token of a text, and what follows it. -/
def Next (cs : List Char) (token : Token) (rest : List Char) : Prop :=
  ∃ start, lexemes cs = ⟨token, start, rest⟩ :: lexemes rest

namespace Next

variable {cs rest : List Char} {token : Token}

theorem named (h : IsToken cs token) (hr : Breaks rest) : Next (cs ++ rest) token rest := by
  obtain ⟨c, body, rfl, hi, hn⟩ := h.exists_cons
  have ha := itemAt_append hi hn h.isNaming hr
  refine ⟨c :: body ++ rest, ?_⟩
  rw [List.cons_append, lexemes_cons, ha]
  simp

theorem blank (h : Next cs token rest) : Next (' ' :: cs) token rest := by
  obtain ⟨start, hs⟩ := h
  refine ⟨start, ?_⟩
  rw [lexemes_cons]
  exact hs

/-- A comma or a parenthesis. -/
theorem sign {c : Char} {s : String} (h : (c, s) ∈ [(',', ","), ('(', "("), (')', ")")])
    (rest : List Char) : Next (c :: rest) (.sign s) rest := by
  refine ⟨c :: rest, ?_⟩
  have hi : itemAt c rest = (some (.sign s), 0) := by
    simp only [List.mem_cons, List.not_mem_nil, or_false, Prod.mk.injEq] at h
    rcases h with ⟨rfl, rfl⟩ | ⟨rfl, rfl⟩ | ⟨rfl, rfl⟩ <;> rfl
  rw [lexemes_cons, hi]
  rfl

/-- An equals sign, where no longer operator begins. -/
theorem equals {rest : List Char} (hr : rest.head? ≠ some '=') :
    Next ('=' :: rest) (.sign "=") rest := by
  refine ⟨'=' :: rest, ?_⟩
  have hi : itemAt '=' rest = (some (.sign "="), 0) := by
    cases rest with
    | nil => rfl
    | cons d rest =>
      have hd : ('=' == d) = false := beq_eq_false_iff_ne.mpr fun he => hr (by rw [← he]; rfl)
      have hs : signAt? ('=' :: d :: rest) = some "=" := by
        simp [signAt?, longSigns, List.isPrefixOf, hd]
      unfold itemAt
      rw [hs]
      rfl
  rw [lexemes_cons, hi]
  rfl

theorem parameter {rest : List Char} (hr : Breaks rest) : Next ('?' :: rest) .parameter rest := by
  have hd : rest.takeWhile Char.isDigit = [] := by
    cases rest with
    | nil => rfl
    | cons c rest =>
      have hm := hr c rfl
      simp only [List.mem_cons, List.not_mem_nil, or_false] at hm
      rcases hm with rfl | rfl | rfl | rfl | rfl <;> rfl
  refine ⟨'?' :: rest, ?_⟩
  have hi : itemAt '?' rest = (some .parameter, 0) := by
    simp [itemAt, isSpace, hd]
  rw [lexemes_cons, hi]
  rfl

end Next

end TaggedRows.Sql.Token
