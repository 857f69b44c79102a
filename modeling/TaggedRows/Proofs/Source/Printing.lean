import TaggedRows.Accessor.Tokens
import TaggedRows.Proofs.Source.Rereading

/-!
# The plain text of tokens is read as them

- **Steps** (`Lexer.ReadsAs`): a text that is read as a sequence of tokens, one token at a time.
- **Sequences** (`Token.Prints`): tokens that are read from their spelling at a gap, operators and
  marked lifetimes; the plain text of such a sequence is read as it (`Token.Prints.readsAs`).
- **Delimiters** (`Token.Closed`): sequences that leave no delimiter open, and close none.
- **The round trip** (`Token.lex?_print`).
-/

namespace TaggedRows

namespace Lexer

variable {cs rest : List Char} {t : Token} {ts : List Token}

/-! ## Steps -/

/-- The text is read as the tokens, with as many steps as it has characters. -/
def ReadsAs (cs : List Char) (ts : List Token) : Prop :=
  ∀ fuel, cs.length ≤ fuel → tokens fuel cs = some ts

theorem readsAs_nil : ReadsAs [] [] := fun fuel _ => by
  cases fuel <;> rfl

theorem ReadsAs.space (h : ReadsAs cs ts) : ReadsAs (' ' :: cs) ts := by
  intro fuel hfuel
  obtain ⟨fuel, rfl⟩ := Nat.exists_eq_add_of_le' (show 1 ≤ fuel from
    Nat.le_trans (Nat.succ_le_succ (Nat.zero_le _)) hfuel)
  have hblank : blank (' ' :: cs) = .skipped cs := rfl
  rw [tokens, hblank]
  · exact h fuel (Nat.le_of_succ_le_succ hfuel)
  · simp

theorem ReadsAs.token (h : ReadsAs rest ts) (ht : Reads t rest) (hne : t.chars ≠ []) :
    ReadsAs (t.chars ++ rest) (t :: ts) := by
  intro fuel hfuel
  have hlen := List.length_pos_iff.mpr hne
  rw [List.length_append] at hfuel
  obtain ⟨fuel, rfl⟩ := Nat.exists_eq_add_of_le' (show 1 ≤ fuel by omega)
  rw [tokens, ht.blank, ht.token]
  · simp only [Option.bind_some, h fuel (by omega), Option.map_some]
  · simp [hne]

theorem token?_nil : token? [] = none := by decide

theorem chars_ne_nil (h : IsSpelled t) : t.chars ≠ [] := by
  intro hnil
  have ht := (h [] (by simp [Ends])).token
  rw [hnil, List.nil_append, token?_nil] at ht
  cases ht

/-- Nothing is read from a byte order mark. -/
theorem ReadsAs.head?_ne (h : ReadsAs cs ts) : cs.head? ≠ some '\ufeff' := by
  intro hhead
  obtain ⟨rest, rfl⟩ := List.head?_eq_some_iff.mp hhead
  have hspace : isSpace '\ufeff' = false := by decide +kernel
  have hstart : Text.isIdentStart '\ufeff' = false := by decide +kernel
  have hliteral : literal? ('\ufeff' :: rest) = none := by
    rw [literal?_default (by simp), number?_letter (by decide)]
    rfl
  have hword : word? ('\ufeff' :: rest) = none := by
    rw [Option.eq_none_iff_forall_ne_some]
    rintro ⟨id, later⟩ hsome
    obtain ⟨c, more, heq, hc⟩ := start_of_anyWord? (word?_eq_some hsome)
    obtain ⟨rfl, rfl⟩ := List.cons.inj heq
    rw [hstart] at hc
    cases hc
  have htoken : token? ('\ufeff' :: rest) = none := by
    unfold token?
    simp only [List.head?_cons, Option.bind_some, show delimiter? '\ufeff' = none from rfl,
      hliteral, punct?_none (show isPunct '\ufeff' = false by decide), Option.orElse_none, hword,
      Option.map_none]
  have hnone := h (rest.length + 1) (by simp)
  rw [tokens, blank_of_not_space (by decide) hspace] at hnone
  · simp only [htoken, Option.bind_none] at hnone
    cases hnone
  · simp

/-- A joint character is not read from its spelling alone. -/
theorem not_isSpelled_joint (c : Char) : ¬ IsSpelled (.punct c true) := by
  intro h
  have ht := (h [] (by simp [Ends])).token
  change token? [c] = _ at ht
  obtain hd | ⟨-, ⟨_, -, heq⟩ | ⟨-, hp | ⟨-, _, heq, -⟩⟩⟩ := token?_cases ht
  · obtain ⟨c', -, hc⟩ := Option.bind_eq_some_iff.mp hd
    obtain ⟨d, heq | heq⟩ := delimiter?_eq_some hc <;> cases heq
  · cases heq
  · obtain ⟨⟨c', later⟩, hchar, hpunct⟩ := Option.bind_eq_some_iff.mp hp
    obtain rfl : later = [] := by
      unfold punctChar? at hchar
      split at hchar
      all_goals first
        | cases hchar
        | next heq =>
          split at hchar
          · cases hchar
            exact (List.cons.inj heq).2.symm
          · cases hchar
    dsimp only at hpunct
    split at hpunct
    · cases hpunct
    · cases hpunct
  · cases heq

end Lexer

namespace Token

open Lexer

variable {t u : Token} {ts as bs : List Token}

/-! ## Sequences -/

/-- Tokens that are read again from their plain text: each is read from its spelling where that
ends, a joint character with the one behind it, and the mark of a lifetime with what it marks. -/
inductive Prints : List Token → Prop where
  | nil : Prints []
  | spelled {t : Token} {ts : List Token} (spelled : IsSpelled t) (later : Prints ts) :
      Prints (t :: ts)
  | operator {c d : Char} {joint : Bool} {ts : List Token}
      (reads : ∀ after, Reads (.punct c true) (d :: after))
      (later : Prints (.punct d joint :: ts)) : Prints (.punct c true :: .punct d joint :: ts)
  | mark {u : Token} {ts : List Token} (marks : Marks u) (later : Prints ts) :
      Prints (.punct '\'' true :: u :: ts)

theorem Prints.append (ha : Prints as) (hb : Prints bs) : Prints (as ++ bs) := by
  induction ha with
  | nil => exact hb
  | spelled spelled _ ih => exact .spelled spelled ih
  | operator reads _ ih => exact .operator reads ih
  | mark marks _ ih => exact .mark marks ih

theorem Prints.flatMap {α : Type} {f : α → List Token} {xs : List α} (h : ∀ x ∈ xs, Prints (f x)) :
    Prints (xs.flatMap f) := by
  induction xs with
  | nil => exact .nil
  | cons x xs ih =>
    exact (h x List.mem_cons_self).append (ih fun y hy => h y (List.mem_cons_of_mem x hy))

theorem gap_eq_false (h : t.gap u = false) :
    (∃ c, t = .punct c true) ∨ (∃ d, t = .opening d) ∨ ∃ d, u = .closing d ∧ d ≠ .brace := by
  rcases t with id | ⟨c, _ | _⟩ | l | d | d
  case punct.true => exact .inl ⟨c, rfl⟩
  case opening => exact .inr (.inl ⟨d, rfl⟩)
  all_goals
    rcases u with _ | _ | _ | _ | ⟨_ | _ | _⟩
    all_goals first
      | exact .inr (.inr ⟨_, rfl, by decide⟩)
      | cases h

/-- What is printed behind a token that is spelled alone, and how that is read. -/
theorem printChars_spelled (h : IsSpelled t) (ts : List Token) :
    ∃ rest, printChars (t :: ts) = t.chars ++ rest ∧ (Ends rest ∨ ∃ d, t = .opening d) ∧
      (ReadsAs (printChars ts) ts → ReadsAs rest ts) := by
  cases ts with
  | nil => exact ⟨[], by simp [printChars], .inl (by simp [Ends]), id⟩
  | cons u us =>
    refine ⟨_, rfl, ?_, fun hread => ?_⟩
    · have hgap : t.gap u = true ∨ (∃ d, t = .opening d) ∨ ∃ d, u = .closing d ∧ d ≠ .brace := by
        cases hgap : t.gap u with
        | true => exact .inl rfl
        | false =>
          obtain ⟨c, rfl⟩ | hbeside := gap_eq_false hgap
          · exact absurd h (not_isSpelled_joint c)
          · exact .inr hbeside
      obtain hgap | hopening | ⟨d, rfl, hd⟩ := hgap
      · refine .inl fun c hc => ?_
        rw [hgap] at hc
        exact .inl (Option.some.inj hc).symm
      · exact .inr hopening
      · refine .inl ?_
        split
        · exact fun c hc => .inl (Option.some.inj hc).symm
        · intro c hc
          cases us <;> cases d <;> first
            | exact absurd rfl hd
            | exact .inr (.inl (Option.some.inj hc).symm)
            | exact .inr (.inr (Option.some.inj hc).symm)
    · split
      · exact hread.space
      · exact hread

theorem not_marks_opening (d : Delimiter) : ¬ Marks (.opening d) := by
  intro h
  have ht := (h.mark [] (by simp [Ends])).token
  cases d <;> exact absurd ht (by decide)

/-- The plain text is read as the tokens. -/
theorem Prints.readsAs (h : Prints ts) : ReadsAs (printChars ts) ts := by
  induction h with
  | nil => exact readsAs_nil
  | @spelled t ts spelled later ih =>
    obtain ⟨rest, heq, hends, hread⟩ := printChars_spelled spelled ts
    rw [heq]
    refine (hread ih).token ?_ (chars_ne_nil spelled)
    obtain hends | ⟨d, rfl⟩ := hends
    · exact spelled rest hends
    · exact isSpelled_opening d rest
  | @operator c d joint ts reads later ih =>
    have htail : ∃ rest, printChars (.punct d joint :: ts) = d :: rest := by
      cases ts with
      | nil => exact ⟨[], rfl⟩
      | cons u us => exact ⟨_, rfl⟩
    obtain ⟨rest, hrest⟩ := htail
    change ReadsAs ((Token.punct c true).chars ++ printChars (.punct d joint :: ts)) _
    refine ih.token ?_ (by simp [chars])
    rw [hrest]
    exact reads rest
  | @mark u ts marks later ih =>
    obtain ⟨rest, heq, hends, hread⟩ := printChars_spelled marks.spelled ts
    have hends : Ends rest := by
      obtain hends | ⟨d, rfl⟩ := hends
      · exact hends
      · exact absurd marks (not_marks_opening d)
    change ReadsAs ((Token.punct '\'' true).chars ++ printChars (u :: ts)) _
    rw [heq]
    refine ((hread ih).token (marks.spelled rest hends) (chars_ne_nil marks.spelled)).token ?_
      (by simp [chars])
    exact marks.mark rest hends

/-! ## Delimiters -/

/-- No delimiter stays open, and none is closed that was not opened. -/
def Closed (ts : List Token) : Prop :=
  ∀ stack more, balanced stack (ts ++ more) = balanced stack more

theorem closed_nil : Closed [] := fun _ _ => rfl

theorem Closed.append (ha : Closed as) (hb : Closed bs) : Closed (as ++ bs) := fun stack more => by
  rw [List.append_assoc, ha, hb]

/-- The delimiters of a sequence. -/
def delimiters : List Token → List Token :=
  List.filter fun
    | .opening _ => true
    | .closing _ => true
    | _ => false

theorem balanced_delimiters (stack : List Delimiter) (ts : List Token) :
    balanced stack (delimiters ts) = balanced stack ts := by
  induction ts generalizing stack with
  | nil => rfl
  | cons t ts ih =>
    cases t with
    | opening d => exact ih (d :: stack)
    | closing d =>
      cases stack with
      | nil => rfl
      | cons e stack => exact congrArg (d == e && ·) (ih stack)
    | word id => exact ih stack
    | punct c joint => exact ih stack
    | literal l => exact ih stack

theorem balanced_append {ts : List Token} {stack : List Delimiter} (h : balanced stack ts = true)
    (below : List Delimiter) (more : List Token) :
    balanced (stack ++ below) (ts ++ more) = balanced below more := by
  induction ts generalizing stack with
  | nil =>
    obtain rfl : stack = [] := List.isEmpty_iff.mp h
    rfl
  | cons t ts ih =>
    cases t with
    | opening d =>
      have hopened : balanced (d :: stack) ts = true := h
      exact ih hopened
    | closing d =>
      cases stack with
      | nil => cases h
      | cons e stack =>
        obtain ⟨hd, hrest⟩ := Bool.and_eq_true_iff.mp h
        change (d == e && balanced (stack ++ below) (ts ++ more)) = _
        rw [hd, Bool.true_and, ih hrest]
    | word id => exact ih h
    | punct c joint => exact ih h
    | literal l => exact ih h

theorem closed_iff : Closed ts ↔ balanced [] ts = true := by
  constructor
  · intro h
    have hnil := h [] []
    rwa [List.append_nil] at hnil
  · exact fun h stack more => balanced_append h stack more

/-- Only the delimiters of a sequence decide. -/
theorem closed_congr (h : delimiters as = delimiters bs) : Closed as ↔ Closed bs := by
  rw [closed_iff, closed_iff, ← balanced_delimiters, h, balanced_delimiters]

theorem closed_of_delimiters (h : delimiters ts = []) : Closed ts :=
  (closed_congr (h : delimiters ts = delimiters [])).mpr closed_nil

theorem closed_of_lex? {text : String} (h : lex? text = some ts) : Closed ts := by
  obtain ⟨us, -, hguard⟩ := Option.bind_eq_some_iff.mp h
  obtain ⟨_, hbalanced, hpure⟩ := Option.bind_eq_some_iff.mp hguard
  cases hpure
  refine closed_iff.mpr (Decidable.byContradiction fun hne => ?_)
  rw [show guard (balanced [] ts = true) = none from if_neg hne] at hbalanced
  cases hbalanced

theorem Closed.within (h : Closed ts) (d : Delimiter) :
    Closed (.opening d :: (ts ++ [.closing d])) := by
  intro stack more
  change balanced (d :: stack) (ts ++ [.closing d] ++ more) = _
  rw [List.append_assoc, h]
  exact (congrArg (· && balanced stack more) (beq_self_eq_true d)).trans (Bool.true_and _)

/-! ## The round trip -/

/-- The tokens are read again from their plain text. -/
structure Rereads (ts : List Token) : Prop where
  prints : Prints ts
  closed : Closed ts

/-- Tokens are read again from their plain text. -/
theorem lex?_print (h : Rereads ts) : lex? (print ts) = some ts := by
  have hread := h.prints.readsAs
  have hguard : guard (balanced [] ts = true) = some () := if_pos (closed_iff.mp h.closed)
  rw [lex?, print, String.toList_ofList, lexChars?]
  simp only [hread.head?_ne, if_false, hread _ (Nat.le_refl _), Option.bind_eq_bind,
    Option.bind_some, hguard]
  rfl

/-! ### Putting sequences together -/

theorem rereads_nil : Rereads [] := ⟨.nil, closed_nil⟩

theorem Rereads.append (ha : Rereads as) (hb : Rereads bs) : Rereads (as ++ bs) :=
  ⟨ha.prints.append hb.prints, ha.closed.append hb.closed⟩

theorem Rereads.flatMap {α : Type} {f : α → List Token} {xs : List α}
    (h : ∀ x ∈ xs, Rereads (f x)) : Rereads (xs.flatMap f) := by
  induction xs with
  | nil => exact rereads_nil
  | cons x xs ih =>
    exact (h x List.mem_cons_self).append (ih fun y hy => h y (List.mem_cons_of_mem x hy))

theorem Rereads.within (h : Rereads ts) (d : Delimiter) : Rereads (within d ts) :=
  ⟨.spelled (fun after _ => isSpelled_opening d after)
    (h.prints.append (.spelled (fun after _ => isSpelled_closing d after) .nil)),
    h.closed.within d⟩

theorem rereads_word {id : Ident} (h : id.IsWritten) : Rereads [.word id] :=
  ⟨.spelled (isSpelled_word h) .nil, closed_of_delimiters rfl⟩

theorem rereads_str (value : String) : Rereads [str value] :=
  ⟨.spelled (isSpelled_str value) .nil, closed_of_delimiters rfl⟩

/-! ### Fixed sequences -/

/-- The tokens are plain words, operators, delimiters and marked words. -/
def isTemplate : List Token → Bool
  | [] => true
  | .word id :: ts => !id.raw && isWordName id.name && isTemplate ts
  | .opening _ :: ts => isTemplate ts
  | .closing _ :: ts => isTemplate ts
  | .punct c false :: ts => isPunct c && c ≠ '\'' && isTemplate ts
  | .punct '\'' true :: .word id :: ts => !id.raw && isWordName id.name && isTemplate ts
  | .punct c true :: .punct d joint :: ts =>
    isPunct c && c ≠ '\'' && c ≠ '/' && isPunct d && d ≠ '/' && isTemplate (.punct d joint :: ts)
  | _ => false

theorem prints_of_isTemplate (h : isTemplate ts = true) : Prints ts := by
  have hword : ∀ {id : Ident}, id.raw = false → isWordName id.name = true → id.IsWritten := by
    rintro ⟨raw, name⟩ rfl hname
    exact isWritten_plain hname
  fun_induction isTemplate ts with
  | case1 => exact .nil
  | case2 id ts ih =>
    simp only [Bool.and_eq_true, Bool.not_eq_true'] at h
    exact .spelled (isSpelled_word (hword h.1.1 h.1.2)) (ih h.2)
  | case3 d ts ih => exact .spelled (fun after _ => isSpelled_opening d after) (ih h)
  | case4 d ts ih => exact .spelled (fun after _ => isSpelled_closing d after) (ih h)
  | case5 c ts ih =>
    simp only [Bool.and_eq_true, decide_eq_true_eq] at h
    exact .spelled (isSpelled_punct h.1.1 h.1.2) (ih h.2)
  | case6 id ts ih =>
    simp only [Bool.and_eq_true, Bool.not_eq_true'] at h
    exact .mark (marks_word (hword h.1.1 h.1.2)) (ih h.2)
  | case7 c d joint ts ih =>
    simp only [Bool.and_eq_true, decide_eq_true_eq] at h
    obtain ⟨⟨⟨⟨⟨hc, hquote⟩, hslash⟩, hd⟩, hslash'⟩, hts⟩ := h
    exact .operator (fun after => reads_joint hc hquote hslash hd hslash' after) (ih hts)
  | case8 => cases h

/-- Sequences that are decided to be read again. -/
theorem rereads_of_template (h : (isTemplate ts && balanced [] ts) = true) : Rereads ts :=
  ⟨prints_of_isTemplate (Bool.and_eq_true_iff.mp h).1,
    closed_iff.mpr (Bool.and_eq_true_iff.mp h).2⟩

end Token

end TaggedRows
