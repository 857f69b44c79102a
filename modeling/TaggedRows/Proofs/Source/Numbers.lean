import Mathlib.Data.Option.Basic
import TaggedRows.Proofs.Source.Scanning

/-!
# Numbers in front of another text

A number is read as a decimal fraction if it can be, else as a whole number. Both readings look at
most one character ahead, except for an exponent, which counts only with a digit. So a number is the
same number in front of a blank or a closing delimiter (`number?_local`).

- **One character after the other** (`TakesTo`): a scanner that goes on behind a character or stops
  in front of it, whatever follows.
- **Fractions** (`mantissa?_local`, `suffix?_local`): the parts of `floatRest?`.
- **Whole numbers** (`intDigits_local`, `floatRest?_of_word`): what is no fraction is none in front
  of another text either.
-/

namespace TaggedRows.Lexer

variable {cs rest after : List Char}

/-- The text goes on like the other one, or is empty or goes on with a blank or a closing
delimiter. -/
def Joins (rest after : List Char) : Prop :=
  after.head? = rest.head? ∨ Ends after

theorem Joins.of_head? {c : Char} {cs after : List Char} (h : Joins (c :: cs) after) :
    (∃ more, after = c :: more) ∨ Ends after := by
  rcases h with h | h
  · exact .inl (List.head?_eq_some_iff.mp h)
  · exact .inr h

theorem Joins.of_nil {after : List Char} (h : Joins [] after) : Ends after := by
  rcases h with h | h
  · intro c hc
    rw [h] at hc
    cases hc
  · exact h

/-- The end of a text is nothing, or one of the characters it may go on with. -/
theorem Ends.cases (h : Ends after) :
    after = [] ∨ ∃ c more, after = c :: more ∧ (c = ' ' ∨ c = ')' ∨ c = ']') := by
  cases after with
  | nil => exact .inl rfl
  | cons c more => exact .inr ⟨c, more, rfl, h c rfl⟩

/-- The scanner takes the same from the text in front of whatever joins it, and answers `out` of
that. -/
def TakesTo {α : Type} (f out : List Char → α) (cs rest : List Char) : Prop :=
  ∃ x, cs = x ++ rest ∧ ∀ after, Joins rest after → f (x ++ after) = out after

section

variable {α : Type} {f g out : List Char → α} {c : Char}

theorem takesTo_nil (hends : ∀ after, Ends after → f after = out after) : TakesTo f out [] [] :=
  ⟨[], rfl, fun after ha => hends after ha.of_nil⟩

/-- The character ends the scan, as the end of the text does. -/
theorem takesTo_stop (hends : ∀ after, Ends after → f after = out after)
    (hstop : ∀ more, f (c :: more) = out (c :: more)) (cs : List Char) :
    TakesTo f out (c :: cs) (c :: cs) := by
  refine ⟨[], rfl, fun after ha => ?_⟩
  rcases ha.of_head? with ⟨more, rfl⟩ | ha
  · exact hstop more
  · exact hends after ha

/-- The scan goes on behind the character. -/
theorem TakesTo.cons (h : TakesTo g out cs rest) (hgo : ∀ more, f (c :: more) = g more) :
    TakesTo f out (c :: cs) rest := by
  obtain ⟨x, rfl, hx⟩ := h
  exact ⟨c :: x, rfl, fun after ha => by rw [List.cons_append, hgo, hx after ha]⟩

end

/-! ## The suffix -/

/-- What follows a suffix, if the number ends there. -/
def suffix? (cs : List Char) : Option (List Char) :=
  (if cs.head?.any Text.isIdentStart then (wordRest? cs).map (·.2) else some cs).filter wordBreak

theorem wordBreak_iff : wordBreak cs = true ↔
    ∀ c, cs.head? = some c → Text.isIdentContinue c = false := by
  unfold wordBreak
  cases cs.head? <;> simp

theorem Ends.wordBreak (h : Ends after) : wordBreak after = true :=
  wordBreak_iff.mpr h.not_isIdentContinue

theorem suffix?_of_not_start (h : ∀ c, cs.head? = some c → Text.isIdentStart c = false) :
    suffix? cs = if wordBreak cs then some cs else none := by
  have hany : cs.head?.any Text.isIdentStart = false := by
    cases hc : cs.head? with
    | none => rfl
    | some c => simpa using h c hc
  rw [suffix?, hany]
  cases hbreak : wordBreak cs <;> simp [hbreak]

theorem suffix?_of_word {w : List Char} (hw : IsWord w) (hr : wordBreak rest = true) :
    suffix? (w ++ rest) = some rest := by
  have hword := wordRest?_eq_some.mpr ⟨hw, rfl, wordBreak_iff.mp hr⟩
  obtain ⟨c, cs, rfl, hc, -⟩ := hw
  have hany : (c :: cs ++ rest).head?.any Text.isIdentStart = true := by simpa using hc
  rw [suffix?, hany, hword]
  simp [hr]

theorem suffix?_of_ends (h : Ends after) : suffix? after = some after := by
  rw [suffix?_of_not_start h.not_isIdentStart, h.wordBreak]
  rfl

theorem suffix?_local (h : suffix? cs = some rest) : ∃ w, cs = w ++ rest ∧ (w = [] ∨ IsWord w) ∧
    wordBreak rest = true := by
  obtain ⟨h, hbreak⟩ := Option.filter_eq_some_iff.mp h
  split at h
  · obtain ⟨⟨w, _⟩, hw, rfl⟩ := Option.map_eq_some_iff.mp h
    obtain ⟨hword, rfl, -⟩ := wordRest?_eq_some.mp hw
    exact ⟨w, rfl, .inr hword, hbreak⟩
  · cases h
    exact ⟨[], rfl, .inl rfl, hbreak⟩

theorem suffix?_append_of_ends {w : List Char} (hw : w = [] ∨ IsWord w) (ha : Ends after) :
    suffix? (w ++ after) = some after := by
  rcases hw with rfl | hw
  · exact suffix?_of_ends ha
  · exact suffix?_of_word hw ha.wordBreak

/-- Where a word ends, there is a suffix or none. -/
theorem exists_suffix?_of_wordBreak (h : wordBreak cs = true) : ∃ rest, suffix? cs = some rest := by
  by_cases hstart : ∃ c, cs.head? = some c ∧ Text.isIdentStart c = true
  · obtain ⟨c, hc, hstart⟩ := hstart
    obtain ⟨more, rfl⟩ := List.head?_eq_some_iff.mp hc
    have hword : wordRest? (c :: more) = some (c :: more.takeWhile Text.isIdentContinue,
        more.dropWhile Text.isIdentContinue) := by rw [wordRest?, if_pos hstart]
    obtain ⟨hw, heq, hbreak⟩ := wordRest?_eq_some.mp hword
    exact ⟨_, by rw [heq, suffix?_of_word hw (wordBreak_iff.mpr hbreak)]⟩
  · refine ⟨cs, ?_⟩
    rw [suffix?_of_not_start fun c hc => by simpa using fun hs => hstart ⟨c, hc, hs⟩, h]
    rfl

/-- What ends the number does not matter for whether it has a suffix. -/
theorem exists_suffix?_append {s : List Char} (hr : wordBreak rest = true)
    (h : suffix? (s ++ after) ≠ none) : ∃ later, suffix? (s ++ rest) = some later := by
  cases s with
  | nil => exact exists_suffix?_of_wordBreak hr
  | cons c s =>
    by_cases hstart : Text.isIdentStart c = true
    · have hword : wordRest? (c :: s ++ rest) =
        some (c :: (s ++ rest).takeWhile Text.isIdentContinue,
          (s ++ rest).dropWhile Text.isIdentContinue) := by
        rw [List.cons_append, wordRest?, if_pos hstart]
      obtain ⟨hw, heq, hbreak⟩ := wordRest?_eq_some.mp hword
      exact ⟨_, by rw [heq, suffix?_of_word hw (wordBreak_iff.mpr hbreak)]⟩
    · have hstart' : Text.isIdentStart c = false := by simpa using hstart
      have hsame : ∀ cs, suffix? (c :: cs) =
          if Text.isIdentContinue c then none else some (c :: cs) := fun cs => by
        rw [suffix?_of_not_start (by simpa using hstart')]
        cases hc : Text.isIdentContinue c <;> simp [wordBreak, hc]
      rw [List.cons_append, hsame] at h ⊢
      split at h
      · exact absurd rfl h
      · next hc => exact ⟨_, if_neg hc⟩

/-! ## Fractions -/

/-- What follows the digits of a decimal fraction and its exponent. -/
def mantissa? (cs : List Char) : Option (List Char) :=
  match floatHead false cs with
  | .plain hasDot rest => if hasDot then some rest else none
  | .exponent hasDot before rest =>
    exponentRest (if hasDot then some before else none) false false rest
  | .refused => none

theorem guard_return (keep : Bool) (rest : List Char) : (do
      guard (keep = true)
      return rest) = if keep = true then some rest else none := by
  cases keep <;> rfl

theorem bind_suffix? (r : Option (List Char)) : (r.bind fun cs => do
      let rest ← if cs.head?.any Text.isIdentStart then (wordRest? cs).map (·.2) else some cs
      guard (wordBreak rest)
      return rest) = r.bind suffix? := by
  refine Option.bind_congr fun cs _ => ?_
  unfold suffix?
  by_cases hstart : cs.head?.any Text.isIdentStart = true
  · rw [if_pos hstart, if_pos hstart]
    cases (wordRest? cs).map (·.2) with
    | none => rfl
    | some rest =>
      rw [Option.filter_some]
      exact guard_return (wordBreak rest) rest
  · rw [if_neg hstart, if_neg hstart, Option.filter_some]
    exact guard_return (wordBreak cs) cs

theorem floatRest?_eq (cs : List Char) : floatRest? cs =
    if cs.head?.any isDigit then (mantissa? cs).bind suffix? else none := by
  rw [← bind_suffix?]
  unfold floatRest? mantissa?
  cases cs.head?.any isDigit with
  | false => rfl
  | true =>
    cases floatHead false cs with
    | plain hasDot rest => cases hasDot <;> rfl
    | exponent hasDot before rest => rfl
    | refused => rfl

/-- No fraction goes on with the character. -/
theorem floatHead_stop {hasDot : Bool} (h : ∀ c, cs.head? = some c →
    isDigit c = false ∧ c ≠ '_' ∧ c ≠ 'e' ∧ c ≠ 'E' ∧ (c = '.' → hasDot = true)) :
    floatHead hasDot cs = .plain hasDot cs := by
  cases cs with
  | nil => rfl
  | cons c cs =>
    obtain ⟨hd, hu, he, hE, hdot⟩ := h c rfl
    by_cases hc : c = '.'
    · subst hc
      simp [floatHead, hd, hdot rfl]
    · simp [floatHead, hd, hu, he, hE, hc]

/-- A point in a fraction that has none. -/
theorem floatHead_dot (h : ¬ cs.head?.any (fun d => d == '.' || Text.isIdentStart d) = true) :
    floatHead false ('.' :: cs) = floatHead true cs := by
  simp [floatHead, h, isDigit]

theorem Ends.floatHead (h : Ends after) (hasDot : Bool) :
    floatHead hasDot after = .plain hasDot after := by
  refine floatHead_stop fun c hc => ?_
  rcases h c hc with rfl | rfl | rfl <;> simp [isDigit]

theorem Ends.no_fraction (h : Ends after) :
    ¬ after.head?.any (fun d => d == '.' || Text.isIdentStart d) = true := by
  rcases h.cases with rfl | ⟨c, more, rfl, rfl | rfl | rfl⟩ <;> simp <;> decide

theorem floatHead_plain_local {hasDot hasDot' : Bool}
    (h : floatHead hasDot cs = .plain hasDot' rest) :
    TakesTo (floatHead hasDot) (.plain hasDot') cs rest := by
  induction cs generalizing hasDot with
  | nil =>
    cases h
    exact takesTo_nil fun _ ha => ha.floatHead _
  | cons c cs ih =>
    have hstop (hany : ∀ more, floatHead hasDot (c :: more) = .plain hasDot (c :: more)) :
        TakesTo (floatHead hasDot) (.plain hasDot') (c :: cs) rest := by
      cases (hany cs).symm.trans h
      exact takesTo_stop (fun _ ha => ha.floatHead _) hany cs
    rw [floatHead] at h
    split at h
    · next hd => exact (ih h).cons fun more => by rw [floatHead, if_pos hd]
    next hd =>
    split at h
    · next hdot =>
      subst hdot
      cases hasDot with
      | true => exact hstop (by simp [floatHead, isDigit])
      | false =>
        rw [if_neg (by decide)] at h
        split at h
        · cases h
        next hnext =>
        obtain ⟨x, rfl, hx⟩ := ih h
        refine ⟨'.' :: x, rfl, fun after ha => ?_⟩
        have hnext' :
            ¬ (x ++ after).head?.any (fun d => d == '.' || Text.isIdentStart d) = true := by
          cases x with
          | cons d x => exact hnext
          | nil =>
            rcases ha with ha | ha
            · rwa [List.nil_append, ha]
            · exact ha.no_fraction
        rw [List.cons_append, floatHead_dot hnext', hx after ha]
    next hdot =>
    split at h
    · cases h
    next he =>
    exact hstop fun more => by rw [floatHead, if_neg hd, if_neg hdot, if_neg he]

theorem floatHead_exponent_local {hasDot hasDot' : Bool} {before : List Char}
    (h : floatHead hasDot cs = .exponent hasDot' before rest) : ∃ x e, cs = x ++ e :: rest ∧
      before = e :: rest ∧ (e = 'e' ∨ e = 'E') ∧
      ∀ after, floatHead hasDot (x ++ e :: after) = .exponent hasDot' (e :: after) after := by
  induction cs generalizing hasDot with
  | nil => cases h
  | cons c cs ih =>
    rw [floatHead] at h
    split at h
    · next hd =>
      obtain ⟨x, e, rfl, hb, he, hx⟩ := ih h
      exact ⟨c :: x, e, rfl, hb, he, fun after => by
        rw [List.cons_append, floatHead, if_pos hd, hx after]⟩
    next hd =>
    split at h
    · next hdot =>
      subst hdot
      cases hasDot with
      | true => cases h
      | false =>
        rw [if_neg (by decide)] at h
        split at h
        · cases h
        next hnext =>
        obtain ⟨x, e, rfl, hb, he, hx⟩ := ih h
        refine ⟨'.' :: x, e, rfl, hb, he, fun after => ?_⟩
        have hhead : (x ++ e :: rest).head? = (x ++ e :: after).head? := by cases x <;> rfl
        rw [hhead] at hnext
        rw [List.cons_append, floatHead_dot hnext, hx]
    next hdot =>
    split at h
    · next he =>
      cases h
      exact ⟨[], c, rfl, rfl, by simpa using he, fun after => by
        rw [List.nil_append, floatHead, if_neg hd, if_neg hdot, if_pos he]⟩
    · cases h

/-- The exponent itself, without what counts where there is none. -/
theorem exponentRest_eq (fallback : Option (List Char)) (hasSign hasValue : Bool)
    (cs : List Char) : exponentRest fallback hasSign hasValue cs =
      (exponentRest none hasSign hasValue cs).or fallback := by
  fun_induction exponentRest fallback hasSign hasValue cs <;> simp_all [exponentRest]

theorem Ends.exponentRest (h : Ends after) (hasSign hasValue : Bool) :
    exponentRest none hasSign hasValue after = if hasValue then some after else none := by
  rcases h.cases with rfl | ⟨c, more, rfl, rfl | rfl | rfl⟩ <;> simp [Lexer.exponentRest, isDigit]

/-- Where an exponent is one, its first character belongs to it or ends it, whatever follows. -/
theorem exponentRest_cons {hasSign hasValue : Bool} {c : Char}
    (h : exponentRest none hasSign hasValue (c :: cs) = some rest) :
    (∃ hasSign' hasValue', exponentRest none hasSign' hasValue' cs = some rest ∧
      ∀ more, exponentRest none hasSign hasValue (c :: more) =
        exponentRest none hasSign' hasValue' more) ∨
    hasValue = true ∧ rest = c :: cs ∧
      ∀ more, exponentRest none hasSign hasValue (c :: more) = some (c :: more) := by
  rw [exponentRest] at h
  split at h
  · next hsign =>
    split at h
    · next hv =>
      cases h
      exact .inr ⟨hv, rfl, fun more => by rw [exponentRest, if_pos hsign, if_pos hv]⟩
    next hv =>
    split at h
    · cases h
    · next hs =>
      exact .inl ⟨_, _, h, fun more => by rw [exponentRest, if_pos hsign, if_neg hv, if_neg hs]⟩
  next hsign =>
  split at h
  · next hd => exact .inl ⟨_, _, h, fun more => by rw [exponentRest, if_neg hsign, if_pos hd]⟩
  next hd =>
  split at h
  · next hu =>
    exact .inl ⟨_, _, h, fun more => by rw [exponentRest, if_neg hsign, if_neg hd, if_pos hu]⟩
  next hu =>
  split at h
  · next hv =>
    cases h
    exact .inr ⟨hv, rfl, fun more => by
      rw [exponentRest, if_neg hsign, if_neg hd, if_neg hu, if_pos hv]⟩
  · cases h

theorem exponentRest_local {hasSign hasValue : Bool}
    (h : exponentRest none hasSign hasValue cs = some rest) :
    TakesTo (exponentRest none hasSign hasValue) some cs rest := by
  have hends (hasSign : Bool) (after : List Char) (ha : Ends after) :
      exponentRest none hasSign true after = some after := ha.exponentRest hasSign true
  induction cs generalizing hasSign hasValue with
  | nil =>
    cases hasValue with
    | false => cases h
    | true =>
      cases h
      exact takesTo_nil (hends hasSign)
  | cons c cs ih =>
    obtain ⟨_, _, h, hgo⟩ | ⟨rfl, rfl, hstop⟩ := exponentRest_cons h
    · exact (ih h).cons hgo
    · exact takesTo_stop (hends hasSign) hstop cs

/-- The character does not make a number go on behind a word. -/
def InWord (c : Char) : Prop := c ≠ '+' ∧ c ≠ '-' ∧ c ≠ '.'

theorem inWord_of_isIdentContinue {c : Char} (h : Text.isIdentContinue c = true) : InWord c := by
  refine ⟨?_, ?_, ?_⟩ <;> rintro rfl <;> exact absurd h (by decide)

theorem inWord_of_isIdentStart {c : Char} (h : Text.isIdentStart c = true) : InWord c := by
  refine ⟨?_, ?_, ?_⟩ <;> rintro rfl <;> exact absurd h (by decide)

theorem IsWord.inWord {w : List Char} (h : IsWord w) : ∀ c ∈ w, InWord c := by
  obtain ⟨c, cs, rfl, hc, hcs⟩ := h
  exact List.forall_mem_cons.mpr
    ⟨inWord_of_isIdentStart hc, fun d hd => inWord_of_isIdentContinue (hcs d hd)⟩

theorem InWord.not_sign {c : Char} (h : InWord c) : (c = '+' || c = '-') = false := by
  simp [h.1, h.2.1]

/-- An exponent with a digit is one. -/
theorem exponentRest_of_value (hasSign : Bool) (cs : List Char) :
    ∃ rest, exponentRest none hasSign true cs = some rest := by
  induction cs with
  | nil => exact ⟨[], rfl⟩
  | cons c cs ih =>
    rw [exponentRest]
    split
    · exact ⟨_, rfl⟩
    split
    · exact ih
    split
    · exact ih
    · exact ⟨_, rfl⟩

/-- Characters of a word are no exponent in front of one text if they are none in front of
another. -/
theorem exponentRest_none_append {s : List Char} {hasSign hasValue : Bool}
    (hs : ∀ c ∈ s, InWord c)
    (h : exponentRest none hasSign hasValue (s ++ rest) = none) (ha : Ends after) :
    exponentRest none hasSign hasValue (s ++ after) = none := by
  cases hasValue with
  | true =>
    obtain ⟨later, hlater⟩ := exponentRest_of_value hasSign (s ++ rest)
    rw [hlater] at h
    cases h
  | false =>
    induction s with
    | nil => rw [List.nil_append, ha.exponentRest, if_neg (by decide)]
    | cons c s ih =>
      obtain ⟨hc, hs⟩ := List.forall_mem_cons.mp hs
      rw [List.cons_append, exponentRest, hc.not_sign] at h ⊢
      simp only [Bool.false_eq_true, if_false] at h ⊢
      split at h
      · obtain ⟨later, hlater⟩ := exponentRest_of_value hasSign (s ++ rest)
        rw [hlater] at h
        cases h
      next hd =>
      rw [if_neg hd]
      split at h
      · next hu =>
        rw [if_pos hu]
        exact ih hs h
      · next hu => rw [if_neg hu]

theorem joins_append {w : List Char} (rest : List Char) (ha : Ends after) :
    Joins (w ++ rest) (w ++ after) := by
  cases w with
  | nil => exact .inr ha
  | cons c w => exact .inl rfl

/-- A fraction without its suffix, in front of another text. -/
theorem mantissa?_local {w : List Char} (hw : w = [] ∨ IsWord w) (hr : wordBreak rest = true)
    (h : mantissa? cs = some (w ++ rest)) : ∃ x, cs = x ++ (w ++ rest) ∧
      ∀ after, Ends after → mantissa? (x ++ (w ++ after)) = some (w ++ after) := by
  unfold mantissa? at h
  split at h
  · next hasDot later hhead =>
    obtain ⟨hdot, rfl⟩ : hasDot = true ∧ later = w ++ rest := by
      cases hasDot <;> simp_all
    obtain ⟨x, rfl, hx⟩ := floatHead_plain_local hhead
    refine ⟨x, rfl, fun after ha => ?_⟩
    rw [mantissa?, hx _ (joins_append rest ha), hdot]
    rfl
  · next hasDot before later hhead =>
    obtain ⟨x, e, rfl, rfl, he, hx⟩ := floatHead_exponent_local hhead
    rw [exponentRest_eq, Option.or_eq_some_iff] at h
    rcases h with h | ⟨hnone, h⟩
    · -- The exponent is one, so it ends where the number does.
      obtain ⟨y, rfl, hy⟩ := exponentRest_local h
      refine ⟨x ++ e :: y, by simp, fun after ha => ?_⟩
      have htext : x ++ e :: y ++ (w ++ after) = x ++ e :: (y ++ (w ++ after)) := by simp
      rw [htext, mantissa?, hx]
      dsimp only
      rw [exponentRest_eq, hy _ (joins_append rest ha)]
      rfl
    · -- There is no exponent, and the suffix begins with its letter.
      obtain ⟨hdot, heq⟩ : hasDot = true ∧ e :: later = w ++ rest := by
        cases hasDot <;> simp_all
      have hne : w ≠ [] := by
        rintro rfl
        have hcontinue := wordBreak_iff.mp hr e (by rw [← List.nil_append rest, ← heq]; rfl)
        rcases he with rfl | rfl <;> exact absurd hcontinue (by decide)
      obtain ⟨_, w', rfl, -, hcontinue⟩ := hw.resolve_left hne
      obtain ⟨rfl, rfl⟩ := List.cons.inj heq
      refine ⟨x, rfl, fun after ha => ?_⟩
      have hnone' := exponentRest_none_append
        (fun c hc => inWord_of_isIdentContinue (hcontinue c hc)) hnone ha
      rw [List.cons_append, mantissa?, hx]
      dsimp only
      rw [exponentRest_eq, hnone', hdot]
      rfl
  · cases h

theorem mantissa?_digit {c : Char} (hc : (isDigit c || c = '_') = true) (cs : List Char) :
    mantissa? (c :: cs) = mantissa? cs := by
  have hhead : floatHead false (c :: cs) = floatHead false cs := by rw [floatHead, if_pos hc]
  unfold mantissa?
  rw [hhead]

/-- The scanner takes the same from the text in front of the end of it, a blank or a closing
delimiter. -/
def TakesEnding (f : List Char → Option (List Char)) (cs rest : List Char) : Prop :=
  ∃ x, cs = x ++ rest ∧ x ≠ [] ∧ ∀ after, Ends after → f (x ++ after) = some after

theorem exists_digit (h : cs.head?.any isDigit = true) :
    ∃ c more, cs = c :: more ∧ isDigit c = true := by
  cases cs with
  | nil => cases h
  | cons c more => exact ⟨c, more, rfl, h⟩

theorem floatRest?_local (h : floatRest? cs = some rest) : TakesEnding floatRest? cs rest := by
  rw [floatRest?_eq] at h
  split at h
  · next hdigit =>
    obtain ⟨c, more, rfl, hc⟩ := exists_digit hdigit
    obtain ⟨m, hm, hsuffix⟩ := Option.bind_eq_some_iff.mp h
    obtain ⟨w, rfl, hw, hr⟩ := suffix?_local hsuffix
    rw [mantissa?_digit (by simp [hc])] at hm
    obtain ⟨x, rfl, hx⟩ := mantissa?_local hw hr hm
    refine ⟨c :: x ++ w, by simp, by simp, fun after ha => ?_⟩
    rw [List.append_assoc, List.cons_append, floatRest?_eq, if_pos (by exact hc),
      mantissa?_digit (by simp [hc]), hx after ha, Option.bind_some, suffix?_append_of_ends hw ha]
  · cases h

/-! ## Whole numbers -/

theorem Ends.intDigits (h : Ends after) (base : Nat) : intDigits base false after = some after := by
  rcases h.cases with rfl | ⟨c, more, rfl, rfl | rfl | rfl⟩ <;>
    simp [Lexer.intDigits, Tag.hexDigit?]

/-- What holds of every ASCII character. -/
theorem of_ascii {p : Char → Bool} (h : (List.range 128).all (fun n => p (Char.ofNat n)) = true)
    {c : Char} (hc : c.toNat < 128) : p c = true := by
  have hp := List.all_eq_true.mp h c.toNat (List.mem_range.mpr hc)
  rwa [Char.ofNat_toNat] at hp

theorem isIdentContinue_of_hexDigit? {c : Char} {d : Nat} (h : Tag.hexDigit? c = some d) :
    Text.isIdentContinue c = true := by
  have hp := of_ascii (p := fun c => !(Tag.hexDigit? c).isSome || Text.isIdentContinue c)
    (by decide +kernel) (Tag.toNat_lt_of_hexDigit? h)
  simpa [h] using hp

theorem isIdentContinue_of_isDigit {c : Char} (h : isDigit c = true) :
    Text.isIdentContinue c = true := by
  have hc : '0' ≤ c ∧ c ≤ '9' := by simpa [isDigit] using h
  exact isIdentContinue_of_hexDigit? (d := c.toNat - '0'.toNat) (if_pos hc)

/-- The first character of a whole number belongs to it or ends it, whatever follows. -/
theorem intDigits_cons {base : Nat} {empty : Bool} {c : Char}
    (h : intDigits base empty (c :: cs) = some rest) :
    (∃ empty', intDigits base empty' cs = some rest ∧ Text.isIdentContinue c = true ∧
      ∀ more, intDigits base empty (c :: more) = intDigits base empty' more) ∨
    empty = false ∧ rest = c :: cs ∧
      ∀ more, intDigits base empty (c :: more) = some (c :: more) := by
  rw [intDigits] at h
  split at h
  · next hu =>
    split at h
    · cases h
    · next he =>
      exact .inl ⟨_, h, by rw [hu]; decide, fun more => by rw [intDigits, if_pos hu, if_neg he]⟩
  next hu =>
  split at h
  · next d hd =>
    split at h
    · next hlt =>
      exact .inl ⟨_, h, isIdentContinue_of_hexDigit? hd, fun more => by
        simp [intDigits, hu, hd, hlt]⟩
    next hlt =>
    split at h
    · cases h
    next hdec =>
    split at h
    · cases h
    · next he =>
      cases h
      exact .inr ⟨by simpa using he, rfl, fun more => by
        simp [intDigits, hu, hd, hlt, hdec, he]⟩
  · next hd =>
    split at h
    · cases h
    · next he =>
      cases h
      exact .inr ⟨by simpa using he, rfl, fun more => by simp [intDigits, hu, hd, he]⟩

theorem intDigits_local {base : Nat} {empty : Bool} (h : intDigits base empty cs = some rest) :
    TakesTo (intDigits base empty) some cs rest := by
  have hends (after : List Char) (ha : Ends after) : intDigits base false after = some after :=
    ha.intDigits base
  induction cs generalizing empty with
  | nil =>
    cases empty with
    | true => cases h
    | false =>
      cases h
      exact takesTo_nil hends
  | cons c cs ih =>
    obtain ⟨_, h, -, hgo⟩ | ⟨rfl, rfl, hstop⟩ := intDigits_cons h
    · exact (ih h).cons hgo
    · exact takesTo_stop hends hstop cs

/-- The digits of a whole number are characters of a word. -/
theorem isIdentContinue_of_intDigits {base : Nat} {empty : Bool} {x : List Char}
    (h : intDigits base empty (x ++ rest) = some rest) :
    ∀ c ∈ x, Text.isIdentContinue c = true := by
  induction x generalizing empty with
  | nil => simp
  | cons c x ih =>
    obtain ⟨_, h, hc, -⟩ | ⟨-, hrest, -⟩ := intDigits_cons h
    · exact List.forall_mem_cons.mpr ⟨hc, ih h⟩
    · exact absurd (congrArg List.length hrest) (by simp; omega)

/-- What follows the digits of a whole number. -/
def whole? : List Char → Option (List Char)
  | '0' :: 'x' :: cs => intDigits 16 true cs
  | '0' :: 'o' :: cs => intDigits 8 true cs
  | '0' :: 'b' :: cs => intDigits 2 true cs
  | cs => intDigits 10 true cs

/-- The letters that a base is written with. -/
def baseLetters : List Char := ['x', 'o', 'b']

theorem whole?_decimal (h : ∀ c ∈ baseLetters, ¬ ['0', c] <+: cs) :
    whole? cs = intDigits 10 true cs := by
  simp only [baseLetters, List.forall_mem_cons, List.not_mem_nil, false_imp_iff, implies_true,
    and_true] at h
  unfold whole?
  split
  · exact absurd (by simp) h.1
  · exact absurd (by simp) h.2.1
  · exact absurd (by simp) h.2.2
  · rfl

theorem intRest?_eq (cs : List Char) : intRest? cs = (whole? cs).bind suffix? := by
  rw [← bind_suffix?]
  unfold intRest?
  split
  · rfl
  · rfl
  · rfl
  · next hx ho hb =>
    rw [whole?_decimal fun c hc hp => ?_]
    · rfl
    · obtain ⟨more, rfl⟩ := hp
      simp only [baseLetters, List.mem_cons, List.not_mem_nil, or_false] at hc
      rcases hc with rfl | rfl | rfl
      · exact hx _ rfl
      · exact ho _ rfl
      · exact hb _ rfl

theorem whole?_local {w : List Char} (h : whole? cs = some (w ++ rest)) :
    ∃ x, cs = x ++ (w ++ rest) ∧ x ≠ [] ∧ (∀ c ∈ x, Text.isIdentContinue c = true) ∧
      ∀ after, Ends after → whole? (x ++ (w ++ after)) = some (w ++ after) := by
  have hbased : ∀ {base : Nat} {c : Char} {more : List Char}, c ∈ baseLetters →
      intDigits base true more = some (w ++ rest) →
      (∀ cs, whole? ('0' :: c :: cs) = intDigits base true cs) →
      ∃ x, '0' :: c :: more = x ++ (w ++ rest) ∧ x ≠ [] ∧
        (∀ c ∈ x, Text.isIdentContinue c = true) ∧
        ∀ after, Ends after → whole? (x ++ (w ++ after)) = some (w ++ after) := by
    intro base c more hc h hany
    obtain ⟨x, rfl, hx⟩ := intDigits_local h
    have hword := isIdentContinue_of_intDigits h
    refine ⟨'0' :: c :: x, rfl, by simp, ?_, fun after ha => ?_⟩
    · have hletters : baseLetters.all Text.isIdentContinue = true := by decide
      exact List.forall_mem_cons.mpr
        ⟨by decide, List.forall_mem_cons.mpr ⟨List.all_eq_true.mp hletters c hc, hword⟩⟩
    · rw [List.cons_append, List.cons_append, hany, hx _ (joins_append rest ha)]
  unfold whole? at h
  split at h
  · exact hbased (by decide) h fun _ => rfl
  · exact hbased (by decide) h fun _ => rfl
  · exact hbased (by decide) h fun _ => rfl
  · next hhex hoct hbin =>
    obtain ⟨x, rfl, hx⟩ := intDigits_local h
    have hne : x ≠ [] := by
      rintro rfl
      cases hx [] (.inr fun c hc => by cases hc)
    refine ⟨x, rfl, hne, isIdentContinue_of_intDigits h, fun after ha => ?_⟩
    rw [whole?_decimal fun c hc hp => ?_, hx _ (joins_append rest ha)]
    -- The second character is that of the number, or ends it.
    have hbase : ∀ more, x ++ (w ++ rest) ≠ '0' :: c :: more := by
      intro more hmore
      simp only [baseLetters, List.mem_cons, List.not_mem_nil, or_false] at hc
      rcases hc with rfl | rfl | rfl
      · exact hhex _ hmore
      · exact hoct _ hmore
      · exact hbin _ hmore
    obtain ⟨more, hmore⟩ := hp
    obtain ⟨d, x, rfl⟩ := List.exists_cons_of_ne_nil hne
    obtain ⟨rfl, hmore⟩ := List.cons.inj hmore
    cases x with
    | cons e x =>
      obtain ⟨rfl, -⟩ : c = e ∧ _ := by simpa using hmore
      exact hbase _ rfl
    | nil =>
      cases w with
      | cons e w =>
        obtain ⟨rfl, -⟩ : c = e ∧ _ := by simpa using hmore
        exact hbase _ rfl
      | nil =>
        obtain rfl : c :: more = after := by simpa using hmore
        have hends := ha c rfl
        simp only [baseLetters, List.mem_cons, List.not_mem_nil, or_false] at hc
        rcases hc with rfl | rfl | rfl <;> simp at hends

/-! ## Numbers -/

/-- An exponent among the characters of a word is one in front of any end of the word. -/
theorem exponentRest_of_word {s m : List Char} {hasSign hasValue : Bool}
    (hs : ∀ c ∈ s, InWord c) (ha : Ends after)
    (h : exponentRest none hasSign hasValue (s ++ after) = some m) :
    ∃ s', m = s' ++ after ∧ ∀ rest, wordBreak rest = true →
      exponentRest none hasSign hasValue (s ++ rest) = some (s' ++ rest) := by
  induction s generalizing hasValue with
  | nil =>
    rw [List.nil_append, ha.exponentRest] at h
    split at h
    · next hv =>
      cases h
      refine ⟨[], rfl, fun rest hr => ?_⟩
      cases rest with
      | nil => simp [exponentRest, hv]
      | cons c rest =>
        have hc := wordBreak_iff.mp hr c rfl
        have hd : isDigit c = false := by
          rw [Bool.eq_false_iff]
          intro hd
          rw [isIdentContinue_of_isDigit hd] at hc
          cases hc
        have hu : c ≠ '_' := by
          rintro rfl
          exact absurd hc (by decide)
        simp [exponentRest, hv, hd, hu]
    · cases h
  | cons c s ih =>
    obtain ⟨hc, hs'⟩ := List.forall_mem_cons.mp hs
    simp only [List.cons_append, exponentRest, hc.not_sign, Bool.false_eq_true,
      if_false] at h ⊢
    split at h
    · next hd =>
      simp only [hd, if_true]
      exact ih hs' h
    next hd =>
    split at h
    · next hu =>
      simp only [hu, if_true]
      exact ih hs' h
    next hu =>
    split at h
    · next hv =>
      cases h
      exact ⟨c :: s, rfl, fun rest _ => by simp [hd, hu, hv]⟩
    · cases h

/-- A fraction among the characters of a word is one in front of any end of the word. -/
theorem mantissa?_of_word {s m : List Char} (hs : ∀ c ∈ s, InWord c)
    (ha : Ends after) (h : mantissa? (s ++ after) = some m) :
    ∃ s', m = s' ++ after ∧ ∀ rest,
      wordBreak rest = true → mantissa? (s ++ rest) = some (s' ++ rest) := by
  induction s with
  | nil =>
    rw [List.nil_append, mantissa?, ha.floatHead] at h
    cases h
  | cons c s ih =>
    obtain ⟨hc, hs⟩ := List.forall_mem_cons.mp hs
    by_cases hd : (isDigit c || c = '_') = true
    · rw [List.cons_append, mantissa?_digit hd] at h
      obtain ⟨s', hm, hany⟩ := ih hs h
      exact ⟨s', hm, fun rest hr => by rw [List.cons_append, mantissa?_digit hd, hany rest hr]⟩
    have hdot : c ≠ '.' := hc.2.2
    by_cases he : (c = 'e' || c = 'E') = true
    · have hhead : ∀ rest, mantissa? (c :: (s ++ rest)) =
          exponentRest none false false (s ++ rest) := fun rest => by
        rw [mantissa?, floatHead, if_neg hd, if_neg hdot, if_pos he]
        rfl
      rw [List.cons_append, hhead] at h
      obtain ⟨s', hm, hany⟩ := exponentRest_of_word hs ha h
      exact ⟨s', hm, fun rest hr => by rw [List.cons_append, hhead, hany rest hr]⟩
    · rw [List.cons_append, mantissa?, floatHead, if_neg hd, if_neg hdot, if_neg he] at h
      cases h

/-- A whole number that is no fraction is none in front of another text either. -/
theorem floatRest?_of_word {s : List Char} (hs : ∀ c ∈ s, InWord c)
    (hne : s ≠ []) (hr : wordBreak rest = true) (h : floatRest? (s ++ rest) = none)
    (ha : Ends after) : floatRest? (s ++ after) = none := by
  obtain ⟨c, s, rfl⟩ := List.exists_cons_of_ne_nil hne
  rw [floatRest?_eq] at h ⊢
  split
  · next hdigit =>
    rw [if_pos (by exact hdigit)] at h
    cases hm : mantissa? (c :: s ++ after) with
    | none => rfl
    | some m =>
      obtain ⟨s', rfl, hany⟩ := mantissa?_of_word hs ha hm
      rw [hany rest hr, Option.bind_some] at h
      rw [Option.bind_some]
      refine Option.eq_none_iff_forall_ne_some.mpr fun later hlater => ?_
      obtain ⟨_, hsome⟩ := exists_suffix?_append hr (by rw [hlater]; simp)
      rw [h] at hsome
      cases hsome
  · rfl

/-- What follows a number: a fraction if it can be one, else a whole number. -/
def number? (cs : List Char) : Option (List Char) :=
  (floatRest? cs).orElse fun _ => intRest? cs

theorem number?_local (h : number? cs = some rest) : TakesEnding number? cs rest := by
  unfold number? at h
  cases hfloat : floatRest? cs with
  | some later =>
    rw [hfloat] at h
    cases h
    obtain ⟨x, rfl, hne, hx⟩ := floatRest?_local hfloat
    exact ⟨x, rfl, hne, fun after ha => by rw [number?, hx after ha]; rfl⟩
  | none =>
    rw [hfloat] at h
    obtain ⟨m, hm, hsuffix⟩ := Option.bind_eq_some_iff.mp ((intRest?_eq cs).symm.trans h)
    obtain ⟨w, rfl, hw, hr⟩ := suffix?_local hsuffix
    obtain ⟨x, rfl, hne, hword, hx⟩ := whole?_local hm
    have hall : ∀ c ∈ x ++ w, InWord c := by
      intro c hc
      rcases List.mem_append.mp hc with hc | hc
      · exact inWord_of_isIdentContinue (hword c hc)
      · rcases hw with rfl | hw
        · cases hc
        · exact hw.inWord c hc
    refine ⟨x ++ w, by simp, by simp [hne], fun after ha => ?_⟩
    rw [← List.append_assoc] at hfloat
    rw [number?, floatRest?_of_word hall (by simp [hne]) hr hfloat ha, List.append_assoc]
    rw [Option.orElse_none, intRest?_eq, hx after ha, Option.bind_some,
      suffix?_append_of_ends hw ha]

end TaggedRows.Lexer
