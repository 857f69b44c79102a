import TaggedRows.Source.Lexer

/-!
# Scanning in front of another text

What a scanner takes from the start of a text is the same in front of another text, where that goes
on with a blank or a closing delimiter, or with anything at all if the scanned part shows its end.

- **Strings** (`stringBody_local`, `raw?_local`, `bytesBody_local`): up to the closing quote.
- **Words** (`IsWord`, `wordRest?_eq_some`, `dropSuffix_local`): up to a character that no word has.
-/

namespace TaggedRows.Lexer

/-- The text is empty or goes on with a blank or a closing delimiter. -/
def Ends (rest : List Char) : Prop :=
  ∀ c ∈ rest.head?, c = ' ' ∨ c = ')' ∨ c = ']'

variable {cs rest body : List Char}

/-! ## Strings -/

/-- The scanner takes the same from the text whatever follows there. -/
def TakesAny {α : Type} (f : List Char → Option (α × List Char)) (cs : List Char) (a : α)
    (rest : List Char) : Prop :=
  ∃ x, cs = x ++ rest ∧ ∀ after, f (x ++ after) = some (a, after)

theorem bracedCode_local {len value : Nat} {v : Char}
    (h : bracedCode len value cs = some (v, rest)) : TakesAny (bracedCode len value) cs v rest := by
  fun_induction bracedCode len value cs with
  | case1 => cases h
  | case2 => cases h
  | case3 len value c cs d hd hlen ih =>
    obtain ⟨x, rfl, hx⟩ := ih h
    refine ⟨c :: x, rfl, fun after => ?_⟩
    simp only [List.cons_append, bracedCode, hd, hlen, if_false, hx]
  | case4 => cases h
  | case5 len value cs hd hlen ih =>
    obtain ⟨x, rfl, hx⟩ := ih h
    refine ⟨'_' :: x, rfl, fun after => ?_⟩
    simp only [List.cons_append, bracedCode, hd, hlen, if_false, if_true, hx]
  | case6 len value cs hd hlen hc =>
    obtain ⟨v', hv, heq⟩ := Option.map_eq_some_iff.mp h
    cases heq
    refine ⟨['}'], rfl, fun after => ?_⟩
    simp [bracedCode, hd, hlen, hv]
  | case7 => cases h

theorem escape?_of_letter {c v : Char} (h : letterEscape? c = some v) (cs : List Char) :
    escape? (c :: cs) = some (v, cs) := by
  unfold escape?
  split
  · next heq =>
    cases heq
    cases h
  · next heq =>
    cases heq
    cases h
  · next heq =>
    cases heq
    simp [h]
  · next heq => cases heq

theorem escape?_local {v : Char} (h : escape? cs = some (v, rest)) :
    TakesAny escape? cs v rest := by
  unfold escape? at h
  split at h
  · next c d cs =>
    split at h
    · next m n hm hn =>
      obtain ⟨v', hv, heq⟩ := Option.map_eq_some_iff.mp h
      cases heq
      exact ⟨['x', c, d], rfl, fun after => by simp [escape?, hm, hn, hv]⟩
    · cases h
  · obtain ⟨x, rfl, hx⟩ := bracedCode_local h
    exact ⟨'u' :: '{' :: x, rfl, fun after => hx after⟩
  · obtain ⟨v', hv, heq⟩ := Option.map_eq_some_iff.mp h
    cases heq
    exact ⟨[_], rfl, fun after => escape?_of_letter hv after⟩
  · cases h

/-- A continued line goes on with the first character that is not blank. -/
theorem continued_local (h : continued cs = some rest) : ∃ x c more, cs = x ++ rest ∧
    rest = c :: more ∧ ∀ after, continued (x ++ c :: after) = some (c :: after) := by
  fun_induction continued cs with
  | case1 cs ih =>
    obtain ⟨x, c, more, rfl, rfl, hx⟩ := ih h
    exact ⟨'\r' :: '\n' :: x, c, more, rfl, rfl, fun after => by simp [continued, hx]⟩
  | case2 => cases h
  | case3 c cs hr hr' hc ih =>
    obtain ⟨x, d, more, rfl, rfl, hx⟩ := ih h
    refine ⟨c :: x, d, more, rfl, rfl, fun after => ?_⟩
    rw [List.cons_append, continued, if_pos hc, hx]
    all_goals simp_all
  | case4 c cs hr hr' hc =>
    cases h
    refine ⟨[], c, cs, rfl, rfl, fun after => ?_⟩
    rw [List.nil_append, continued, if_neg hc]
    all_goals simp_all
  | case5 => cases h

theorem escape?_ne_newline {v : Char} (h : escape? cs = some (v, rest)) :
    cs.head? ≠ some '\n' ∧ cs.head? ≠ some '\r' := by
  refine ⟨?_, ?_⟩ <;>
  · intro hc
    obtain ⟨more, rfl⟩ := List.head?_eq_some_iff.mp hc
    simp [escape?, letterEscape?] at h

theorem stringBody_escape {v : Char} (h : escape? cs = some (v, rest)) (fuel : Nat) :
    stringBody (fuel + 1) ('\\' :: cs) =
      (stringBody fuel rest).map fun (body, rest) => (v :: body, rest) := by
  obtain ⟨hn, hr⟩ := escape?_ne_newline h
  rw [stringBody.eq_def]
  simp only [Char.reduceEq, if_false, if_true]
  split
  · simp at hn
  · simp at hr
  · rw [h]
    rfl

/-- The scanner of a body takes the same from the text whatever follows there, given as many steps
as the part that it takes has characters. -/
def TakesBody {α : Type} (f : Nat → List Char → Option (α × List Char)) (cs : List Char) (a : α)
    (rest : List Char) : Prop :=
  ∃ x, cs = x ++ rest ∧ x ≠ [] ∧
    ∀ fuel after, x.length ≤ fuel → f fuel (x ++ after) = some (a, after)

/-- One step of a scanner, and the body behind it. -/
theorem TakesBody.step {α : Type} {f : Nat → List Char → Option (α × List Char)}
    {later : List Char} {part a : α} (h : TakesBody f later part rest) (start : List Char)
    (hstart : start ≠ [])
    (hone : ∀ fuel x after, x ≠ [] → x.head? = later.head? →
      f fuel (x ++ after) = some (part, after) →
        f (fuel + 1) (start ++ (x ++ after)) = some (a, after)) :
    TakesBody f (start ++ later) a rest := by
  obtain ⟨x, rfl, hne, hx⟩ := h
  refine ⟨start ++ x, by simp, by simp [hne], fun fuel after hfuel => ?_⟩
  have hlen : 0 < start.length := List.length_pos_iff.mpr hstart
  rw [List.length_append] at hfuel
  obtain ⟨fuel, rfl⟩ := Nat.exists_eq_add_of_le' (show 1 ≤ fuel by omega)
  have hhead : x.head? = (x ++ rest).head? := by
    obtain ⟨c, more, rfl⟩ := List.exists_cons_of_ne_nil hne
    rfl
  rw [List.append_assoc]
  exact hone fuel x after hne hhead (hx fuel after (by omega))

/-- A line that is continued, and the body behind its blanks. -/
theorem TakesBody.continued {α : Type} {f : Nat → List Char → Option (α × List Char)}
    {blanks later : List Char} {a : α} (h : TakesBody f later a rest) (start : List Char)
    (hstart : start ≠ [])
    (hblanks : continued blanks = some later)
    (hone : ∀ fuel cs, f (fuel + 1) (start ++ cs) = (Lexer.continued cs).bind (f fuel)) :
    TakesBody f (start ++ blanks) a rest := by
  obtain ⟨skipped, d, tail, rfl, rfl, hd⟩ := continued_local hblanks
  rw [← List.append_assoc]
  refine h.step (start ++ skipped) (by simp [hstart]) fun fuel x after hne hhead hx => ?_
  obtain ⟨d', tail', rfl⟩ := List.exists_cons_of_ne_nil hne
  obtain rfl : d' = d := by simpa using hhead
  rw [List.append_assoc, hone, List.cons_append, hd, Option.bind_some]
  exact hx

theorem takesBody_quote {α : Type} {f : Nat → List Char → Option (α × List Char)} {a : α}
    (h : ∀ fuel cs, f (fuel + 1) ('"' :: cs) = some (a, cs)) (cs : List Char) :
    TakesBody f ('"' :: cs) a cs := by
  refine ⟨['"'], rfl, by simp, fun fuel after hfuel => ?_⟩
  obtain ⟨fuel, rfl⟩ := Nat.exists_eq_add_of_le' hfuel
  exact h fuel after

theorem stringBody_local {fuel : Nat} (h : stringBody fuel cs = some (body, rest)) :
    TakesBody stringBody cs body rest := by
  induction fuel generalizing cs body with
  | zero => cases h
  | succ fuel ih =>
    cases cs with
    | nil => cases h
    | cons c cs =>
      rw [stringBody.eq_def] at h
      dsimp only at h
      split at h
      · next hc =>
        cases h
        subst hc
        exact takesBody_quote (fun _ _ => by simp [stringBody]) _
      split at h
      · next hc =>
        subst hc
        split at h
        · obtain ⟨⟨part, _⟩, hlater, heq⟩ := Option.map_eq_some_iff.mp h
          cases heq
          refine (ih hlater).step ['\r', '\n'] (by simp) fun fuel x after _ _ hx => ?_
          simp [stringBody, hx]
        · cases h
      split at h
      · next hc =>
        subst hc
        split at h
        · obtain ⟨later, hblanks, hlater⟩ := Option.bind_eq_some_iff.mp h
          exact (ih hlater).continued ['\\', '\n'] (by simp) hblanks
            fun _ _ => by simp [stringBody]
        · obtain ⟨later, hblanks, hlater⟩ := Option.bind_eq_some_iff.mp h
          exact (ih hlater).continued ['\\', '\r', '\n'] (by simp) hblanks
            fun _ _ => by simp [stringBody]
        · obtain ⟨⟨v, later⟩, hescape, h⟩ := Option.bind_eq_some_iff.mp h
          obtain ⟨⟨part, _⟩, hlater, heq⟩ := Option.map_eq_some_iff.mp h
          cases heq
          obtain ⟨x, rfl, hx⟩ := escape?_local hescape
          refine (ih hlater).step ('\\' :: x) (by simp) fun fuel y after _ _ hy => ?_
          rw [List.cons_append, stringBody_escape (hx _), hy]
          rfl
      · next hquote hreturn hslash =>
        obtain ⟨⟨part, _⟩, hlater, heq⟩ := Option.map_eq_some_iff.mp h
        cases heq
        refine (ih hlater).step [c] (by simp) fun fuel x after _ _ hx => ?_
        simp [stringBody, hquote, hreturn, hslash, hx]

theorem mem_of_letterEscape? {c : Char} (h : (letterEscape? c).isSome = true) :
    c ∈ ['n', 'r', 't', '\\', '\'', '"', '0'] := by
  unfold letterEscape? at h
  split at h <;> simp_all

theorem bytesBody_letter {keep : Char → Bool} {unicode : Bool} {code : Nat → Bool} {d : Char}
    (hkeep : keep '\\' = true) (hd : ((letterEscape? d).isSome && (code 0 || d ≠ '0')) = true)
    (fuel : Nat) (cs : List Char) : bytesBody keep unicode code (fuel + 1) ('\\' :: d :: cs) =
      bytesBody keep unicode code fuel cs := by
  have hm := mem_of_letterEscape? (Bool.and_eq_true_iff.mp hd).1
  simp only [List.mem_cons, List.not_mem_nil, or_false] at hm
  rcases hm with rfl | rfl | rfl | rfl | rfl | rfl | rfl <;>
    simp_all [bytesBody, letterEscape?]

theorem bytesBody_local {keep : Char → Bool} {unicode : Bool} {code : Nat → Bool} {fuel : Nat}
    (h : bytesBody keep unicode code fuel cs = some rest) :
    TakesBody (fun fuel cs => (bytesBody keep unicode code fuel cs).map ((), ·)) cs () rest := by
  induction fuel generalizing cs with
  | zero => cases h
  | succ fuel ih =>
    cases cs with
    | nil => cases h
    | cons c cs =>
      rw [bytesBody.eq_def] at h
      dsimp only at h
      split at h
      · next hc =>
        cases h
        subst hc
        exact takesBody_quote (fun _ _ => by simp [bytesBody]) _
      next hquote =>
      split at h
      · cases h
      next hkeep =>
      split at h
      · next hc =>
        subst hc
        split at h
        · refine (ih h).step ['\r', '\n'] (by simp) fun fuel x after _ _ hx => ?_
          simpa [bytesBody, hkeep] using hx
        · cases h
      split at h
      · next hc =>
        subst hc
        split at h
        · obtain ⟨later, hblanks, hlater⟩ := Option.bind_eq_some_iff.mp h
          refine (ih hlater).continued ['\\', '\n'] (by simp) hblanks fun fuel cs => ?_
          simp only [List.cons_append, List.nil_append, bytesBody, hkeep]
          cases Lexer.continued cs <;> simp
        · obtain ⟨later, hblanks, hlater⟩ := Option.bind_eq_some_iff.mp h
          refine (ih hlater).continued ['\\', '\r', '\n'] (by simp) hblanks
            fun fuel cs => ?_
          simp only [List.cons_append, List.nil_append, bytesBody, hkeep]
          cases Lexer.continued cs <;> simp
        · next d e cs =>
          split at h
          · next m n hm hn =>
            split at h
            · next hcode =>
              refine (ih h).step ['\\', 'x', d, e] (by simp) fun fuel x after _ _ hx => ?_
              simpa [bytesBody, hkeep, hm, hn, hcode] using hx
            · cases h
          · cases h
        · split at h
          · next hunicode =>
            obtain ⟨⟨v, later⟩, hcode, hbody⟩ := Option.bind_eq_some_iff.mp h
            obtain ⟨x, rfl, hx⟩ := bracedCode_local hcode
            dsimp only at hbody
            split at hbody
            · cases hbody
            · next hv =>
              refine (ih hbody).step ('\\' :: 'u' :: '{' :: x) (by simp)
                fun fuel y after _ _ hy => ?_
              simpa [bytesBody, hkeep, hunicode, hx, hv] using hy
          · cases h
        · next d cs hn hr hx hu =>
          split at h
          · next hletter =>
            refine (ih h).step ['\\', d] (by simp) fun fuel x after _ _ hx => ?_
            change (bytesBody keep unicode code (fuel + 1) ('\\' :: d :: (x ++ after))).map _ = _
            rw [bytesBody_letter (by simpa using hkeep) hletter]
            exact hx
          · cases h
        · cases h
      · next hreturn hslash =>
        refine (ih h).step [c] (by simp) fun fuel x after _ _ hx => ?_
        simpa [bytesBody, hquote, hkeep, hreturn, hslash] using hx

theorem isPrefixOf_append {lead x : List Char} (h : lead.length ≤ x.length) (after : List Char) :
    lead.isPrefixOf (x ++ after) = lead.isPrefixOf x := by
  rw [Bool.eq_iff_iff, List.isPrefixOf_iff_prefix, List.isPrefixOf_iff_prefix]
  refine ⟨fun hp => ?_, fun hp => hp.trans (List.prefix_append x after)⟩
  exact List.prefix_of_prefix_length_le hp (List.prefix_append x after) h

theorem rawBody_local {keep : Char → Bool} {hashes : List Char}
    (h : rawBody keep hashes cs = some (body, rest)) : ∃ x, cs = x ++ rest ∧
      hashes.length < x.length ∧
        ∀ after, rawBody keep hashes (x ++ after) = some (body, after) := by
  induction cs generalizing body with
  | nil => cases h
  | cons c cs ih =>
    rw [rawBody] at h
    split at h
    · next hc =>
      cases h
      rw [Bool.and_eq_true, decide_eq_true_iff, List.isPrefixOf_iff_prefix] at hc
      obtain ⟨rfl, more, rfl⟩ := hc
      refine ⟨'"' :: hashes, by simp, by simp, fun after => ?_⟩
      simp [rawBody]
    next hc =>
    split at h
    · cases h
    next hkeep =>
    split at h
    · cases h
    next hreturn =>
    obtain ⟨⟨part, _⟩, hlater, heq⟩ := Option.map_eq_some_iff.mp h
    cases heq
    obtain ⟨x, rfl, hlen, hx⟩ := ih hlater
    refine ⟨c :: x, rfl, by simp; omega, fun after => ?_⟩
    have hne : x ≠ [] := fun hn => by simp [hn] at hlen
    have hhead : ∀ after, (x ++ after).head? = x.head? := fun after => by
      obtain ⟨d, more, rfl⟩ := List.exists_cons_of_ne_nil hne
      rfl
    rw [isPrefixOf_append (by omega)] at hc
    rw [hhead] at hreturn
    rw [List.cons_append, rawBody, isPrefixOf_append (by omega), hhead, if_neg hc, if_neg hkeep,
      if_neg hreturn, hx]
    rfl

theorem raw?_local {keep : Char → Bool} (h : raw? keep cs = some (body, rest)) :
    TakesAny (raw? keep) cs body rest := by
  have hsplit := List.takeWhile_append_dropWhile (p := (· == '#')) (l := cs)
  have hall : ∀ c ∈ cs.takeWhile (· == '#'), (c == '#') = true :=
    List.all_eq_true.mp List.all_takeWhile
  unfold raw? at h
  dsimp only at h
  split at h
  · next more hdrop =>
    split at h
    · next hlen =>
      obtain ⟨x, rfl, -, hx⟩ := rawBody_local h
      refine ⟨cs.takeWhile (· == '#') ++ '"' :: x, ?_, fun after => ?_⟩
      · rw [List.append_assoc, List.cons_append, ← hdrop, hsplit]
      have htake : (cs.takeWhile (· == '#') ++ '"' :: (x ++ after)).takeWhile (· == '#') =
          cs.takeWhile (· == '#') := by
        rw [List.takeWhile_append_of_pos hall]
        simp
      have hrest : (cs.takeWhile (· == '#') ++ '"' :: (x ++ after)).dropWhile (· == '#') =
          '"' :: (x ++ after) := by
        rw [List.dropWhile_append_of_pos hall]
        rfl
      rw [List.append_assoc, List.cons_append, raw?, htake, hrest]
      simp only [hlen, if_true, hx]
    · cases h
  · cases h

/-! ## Words -/

theorem Ends.not_isIdentContinue (h : Ends rest) :
    ∀ c, rest.head? = some c → Text.isIdentContinue c = false := by
  intro c hc
  rcases h c hc with rfl | rfl | rfl <;> decide

theorem Ends.not_isIdentStart (h : Ends rest) :
    ∀ c, rest.head? = some c → Text.isIdentStart c = false := by
  intro c hc
  rcases h c hc with rfl | rfl | rfl <;> decide

/-- A word: its first character may begin an identifier, and the others continue it. -/
def IsWord (w : List Char) : Prop :=
  ∃ c cs, w = c :: cs ∧ Text.isIdentStart c = true ∧ ∀ d ∈ cs, Text.isIdentContinue d = true

theorem wordRest?_eq_some {w : List Char} : wordRest? cs = some (w, rest) ↔
    IsWord w ∧ cs = w ++ rest ∧ ∀ c, rest.head? = some c → Text.isIdentContinue c = false := by
  constructor
  · intro h
    cases cs with
    | nil => cases h
    | cons c cs =>
      rw [wordRest?] at h
      split at h
      · next hc =>
        cases h
        refine ⟨⟨c, _, rfl, hc, List.all_eq_true.mp List.all_takeWhile⟩, ?_, fun d hd => ?_⟩
        · rw [List.cons_append, List.takeWhile_append_dropWhile]
        · have hnot := List.head?_dropWhile_not Text.isIdentContinue cs
          rw [hd] at hnot
          exact hnot
      · cases h
  · rintro ⟨⟨c, cs, rfl, hc, hcs⟩, rfl, hrest⟩
    have htake : (cs ++ rest).takeWhile Text.isIdentContinue = cs := by
      rw [List.takeWhile_append_of_pos hcs]
      cases rest with
      | nil => simp
      | cons d rest => simp [hrest d rfl]
    have hdrop : (cs ++ rest).dropWhile Text.isIdentContinue = rest := by
      rw [List.dropWhile_append_of_pos hcs]
      cases rest with
      | nil => simp
      | cons d rest => simp [hrest d rfl]
    rw [List.cons_append, wordRest?, if_pos hc, htake, hdrop]

theorem wordRest?_of_ends {w after : List Char} (hw : IsWord w) (ha : Ends after) :
    wordRest? (w ++ after) = some (w, after) :=
  wordRest?_eq_some.mpr ⟨hw, rfl, ha.not_isIdentContinue⟩

theorem wordRest?_eq_none (h : ∀ c, cs.head? = some c → Text.isIdentStart c = false) :
    wordRest? cs = none := by
  cases cs with
  | nil => rfl
  | cons c cs => simp [wordRest?, h c rfl]

theorem dropSuffix_local (h : dropSuffix cs = rest) :
    ∃ w, cs = w ++ rest ∧ ∀ after, Ends after → dropSuffix (w ++ after) = after := by
  unfold dropSuffix at h
  cases hw : wordRest? cs with
  | none =>
    rw [hw] at h
    refine ⟨[], h, fun after ha => ?_⟩
    rw [List.nil_append, dropSuffix, wordRest?_eq_none ha.not_isIdentStart]
    rfl
  | some p =>
    rw [hw] at h
    obtain ⟨w, _⟩ := p
    obtain rfl : _ = rest := h
    obtain ⟨hword, rfl, -⟩ := wordRest?_eq_some.mp hw
    exact ⟨w, rfl, fun after ha => by rw [dropSuffix, wordRest?_of_ends hword ha]; rfl⟩

end TaggedRows.Lexer
