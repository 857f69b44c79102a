import TaggedRows.Proofs.Source.Numbers
import TaggedRows.Proofs.Text.Blank

/-!
# Tokens in front of another text

A token that was read from a text is read again from its own spelling, as long as that ends there or
is followed by a blank or a closing delimiter.

- **Literals** (`Lexer.literal?_local`): each kind as far as its scanner goes.
- **Words** (`Ident.IsWritten`, `Lexer.word?_word`, `Lexer.word?_raw`): no literal begins where a
  word does.
- **Tokens** (`Lexer.Reads`, `Lexer.IsSpelled`): what a token is read from, in front of one text or
  wherever it may end.
-/

namespace TaggedRows

namespace Lexer

variable {cs rest after : List Char}

/-! ## Literals -/

theorem number?_letter {c : Char} (hc : isDigit c = false) (cs : List Char) :
    number? (c :: cs) = none := by
  have hfloat : floatRest? (c :: cs) = none := by
    rw [floatRest?_eq, if_neg]
    simp [hc]
  have hzero : c ≠ '0' := by
    rintro rfl
    exact absurd hc (by decide)
  have hwhole : whole? (c :: cs) = intDigits 10 true (c :: cs) := by
    refine whole?_decimal fun d _ hp => hzero ?_
    obtain ⟨more, hmore⟩ := hp
    exact (List.cons.inj hmore).1.symm
  rw [number?, hfloat, Option.orElse_none, intRest?_eq, hwhole, intDigits]
  by_cases hu : c = '_'
  · simp [hu]
  rw [if_neg hu]
  cases hd : Tag.hexDigit? c with
  | none => rfl
  | some d =>
    have hlarge : ¬ d < 10 := by
      unfold Tag.hexDigit? at hd
      split at hd
      · next hrange => simp [isDigit, hrange] at hc
      split at hd
      · cases hd
        omega
      split at hd
      · cases hd
        omega
      · cases hd
    simp [hlarge, hc]

/-- Where no other literal can begin, there may be a number. -/
theorem literal?_default (h : ∀ c, cs.head? = some c → c ∉ ['"', 'r', 'b', 'c', '\'']) :
    literal? cs = (number? cs).map fun rest => (.number, rest) := by
  unfold literal?
  split
  all_goals first
    | rfl
    | exact absurd (h _ rfl) (by decide)

theorem TakesBody.takesAny {α : Type} {f : Nat → List Char → Option (α × List Char)} {a : α}
    (h : TakesBody f cs a rest) (k : Nat) :
    TakesAny (fun cs => f (cs.length + k) cs) cs a rest := by
  obtain ⟨x, rfl, -, hx⟩ := h
  exact ⟨x, rfl, fun after => hx _ after (by rw [List.length_append]; omega)⟩

theorem strip?_quote_eq_some : strip? ['\''] cs = some rest ↔ cs = '\'' :: rest := by
  cases cs with
  | nil => simp [strip?]
  | cons c cs =>
    by_cases hc : c = '\''
    · simp [strip?, hc]
    · have hc' : '\'' ≠ c := Ne.symm hc
      simp [strip?, hc, hc']

/-- A character between its quotes. -/
theorem charBody?_local (h : charBody? cs = some ('\'' :: rest)) : ∃ x, cs = x ++ '\'' :: rest ∧
    ∀ after, charBody? (x ++ '\'' :: after) = some ('\'' :: after) := by
  unfold charBody? at h
  split at h
  · obtain ⟨⟨v, _⟩, hescape, rfl⟩ := Option.map_eq_some_iff.mp h
    obtain ⟨x, rfl, hx⟩ := escape?_local hescape
    exact ⟨'\\' :: x, rfl, fun after => by rw [List.cons_append, charBody?, hx]; rfl⟩
  · next c _ hc =>
    cases h
    refine ⟨[c], rfl, fun after => ?_⟩
    unfold charBody?
    split
    · next heq =>
      cases heq
      exact (hc rfl).elim
    · next heq =>
      cases heq
      rfl
    · next heq => cases heq
  · cases h

/-- A byte between its quotes. -/
theorem byteBody?_local (h : byteBody? cs = some ('\'' :: rest)) : ∃ x, cs = x ++ '\'' :: rest ∧
    ∀ after, byteBody? (x ++ '\'' :: after) = some ('\'' :: after) := by
  unfold byteBody? at h
  split at h
  · next c d cs =>
    split at h
    · next hdigits =>
      cases h
      exact ⟨['\\', 'x', c, d], rfl, fun after => by simp [byteBody?, hdigits]⟩
    · cases h
  · next c cs _ =>
    split at h
    · next hletter =>
      cases h
      refine ⟨['\\', c], rfl, fun after => ?_⟩
      have hm := mem_of_letterEscape? hletter
      simp only [List.mem_cons, List.not_mem_nil, or_false] at hm
      rcases hm with rfl | rfl | rfl | rfl | rfl | rfl | rfl <;> simp [byteBody?, letterEscape?]
    · cases h
  · next c cs _ _ =>
    split at h
    · next hc =>
      cases h
      obtain ⟨hascii, hslash⟩ : c.toNat < 128 ∧ c ≠ '\\' := by simpa using hc
      exact ⟨[c], rfl, fun after => by simp [byteBody?, hslash, hascii]⟩
    · cases h
  · cases h

/-- A literal with the given lead, the rest of which is scanned up to its end. -/
theorem literal?_local_of_lead {α : Type} (lead : List Char)
    {f : List Char → Option (α × List Char)} {g : α → LiteralKind} {kind : LiteralKind}
    (hlead : lead ≠ []) (heq : ∀ cs, literal? (lead ++ cs) =
      (f cs).map fun (a, rest) => (g a, dropSuffix rest))
    (hf : ∀ {cs a later}, f cs = some (a, later) → TakesAny f cs a later)
    (h : literal? (lead ++ cs) = some (kind, rest)) : ∃ x, lead ++ cs = x ++ rest ∧ x ≠ [] ∧
      ∀ after, Ends after → literal? (x ++ after) = some (kind, after) := by
  rw [heq] at h
  obtain ⟨⟨a, later⟩, hscan, hkind⟩ := Option.map_eq_some_iff.mp h
  obtain ⟨rfl, hsuffix⟩ := Prod.mk.inj hkind
  obtain ⟨x, rfl, hx⟩ := hf hscan
  obtain ⟨w, rfl, hw⟩ := dropSuffix_local hsuffix
  refine ⟨lead ++ x ++ w, by simp, by simp [hlead], fun after ha => ?_⟩
  rw [List.append_assoc, List.append_assoc, heq, hx]
  simp only [Option.map_some, hw after ha]

theorem bytes_local {keep : Char → Bool} {unicode : Bool} {code : Nat → Bool} {k : Nat} {a : Unit}
    (h : (bytesBody keep unicode code (cs.length + k) cs).map ((), ·) = some (a, rest)) :
    TakesAny (fun cs => (bytesBody keep unicode code (cs.length + k) cs).map ((), ·)) cs a
      rest := by
  obtain ⟨_, hbody, heq⟩ := Option.map_eq_some_iff.mp h
  cases heq
  exact (bytesBody_local hbody).takesAny k

theorem quote_local {f : List Char → Option (List Char)} {a : Unit}
    (hf : ∀ {cs rest}, f cs = some ('\'' :: rest) → ∃ x, cs = x ++ '\'' :: rest ∧
      ∀ after, f (x ++ '\'' :: after) = some ('\'' :: after))
    (h : ((f cs).bind (strip? ['\''])).map ((), ·) = some (a, rest)) :
    TakesAny (fun cs => ((f cs).bind (strip? ['\''])).map ((), ·)) cs a rest := by
  obtain ⟨_, hbind, heq⟩ := Option.map_eq_some_iff.mp h
  cases heq
  obtain ⟨later, hlater, hstrip⟩ := Option.bind_eq_some_iff.mp hbind
  obtain rfl := strip?_quote_eq_some.mp hstrip
  obtain ⟨x, rfl, hx⟩ := hf hlater
  refine ⟨x ++ ['\''], by simp, fun after => ?_⟩
  rw [List.append_assoc, List.singleton_append]
  have hend : strip? ['\''] ('\'' :: after) = some after := strip?_quote_eq_some.mpr rfl
  simp only [hx, Option.bind_some, hend, Option.map_some]

theorem literal?_local {kind : LiteralKind} (h : literal? cs = some (kind, rest)) :
    ∃ x, cs = x ++ rest ∧ x ≠ [] ∧
      ∀ after, Ends after → literal? (x ++ after) = some (kind, after) := by
  have hcases := h
  unfold literal? at hcases
  split at hcases
  · exact literal?_local_of_lead ['"'] (g := fun body => .string (String.ofList body))
      (f := fun cs => stringBody (cs.length + 2) cs) (by simp) (fun _ => rfl)
      (fun hf => (stringBody_local hf).takesAny 2) h
  · exact literal?_local_of_lead ['r'] (g := fun body => .string (String.ofList body))
      (f := raw? fun _ => true) (by simp) (fun _ => rfl) raw?_local h
  · exact literal?_local_of_lead ['b', '"'] (g := fun _ => .other)
      (f := fun cs => (bytesBody (·.toNat < 0x80) false (fun _ => true) (cs.length + 3) cs).map
        ((), ·)) (by simp) (fun cs => by
          rw [Option.map_map]
          rfl) bytes_local h
  · exact literal?_local_of_lead ['b', 'r'] (g := fun _ => .other)
      (f := raw? (·.toNat < 0x80)) (by simp) (fun cs => by
        change Option.map _ (Option.map _ _) = _
        rw [Option.map_map]
        rfl) raw?_local h
  · exact literal?_local_of_lead ['c', '"'] (g := fun _ => .other)
      (f := fun cs => (bytesBody (· ≠ '\x00') true (· ≠ 0) (cs.length + 3) cs).map ((), ·))
      (by simp) (fun cs => by
        rw [Option.map_map]
        rfl) bytes_local h
  · exact literal?_local_of_lead ['c', 'r'] (g := fun _ => .other)
      (f := raw? (· ≠ '\x00')) (by simp) (fun cs => by
        change Option.map _ (Option.map _ _) = _
        rw [Option.map_map]
        rfl) raw?_local h
  · exact literal?_local_of_lead ['b', '\''] (g := fun _ => .other)
      (f := fun cs => ((byteBody? cs).bind (strip? ['\''])).map ((), ·)) (by simp) (fun cs => by
        rw [Option.map_map]
        rfl) (quote_local byteBody?_local) h
  · exact literal?_local_of_lead ['\''] (g := fun _ => .other)
      (f := fun cs => ((charBody? cs).bind (strip? ['\''])).map ((), ·)) (by simp) (fun cs => by
        rw [Option.map_map]
        rfl) (quote_local charBody?_local) h
  · next hquote hraw hbytes hrawBytes hzero hrawZero hbyte hchar =>
    obtain ⟨later, hnumber, heq⟩ := Option.map_eq_some_iff.mp hcases
    cases heq
    obtain ⟨x, rfl, hne, hx⟩ := number?_local hnumber
    refine ⟨x, rfl, hne, fun after ha => ?_⟩
    rw [literal?_default ?_, hx after ha]
    · rfl
    · intro c hc
      obtain ⟨d, x, rfl⟩ := List.exists_cons_of_ne_nil hne
      obtain rfl : d = c := Option.some.inj hc
      simp only [List.mem_cons, List.not_mem_nil, or_false]
      rintro (rfl | rfl | rfl | rfl | rfl)
      · exact hquote _ rfl
      · exact hraw _ rfl
      · cases (number?_letter (by decide) _).symm.trans hnumber
      · cases (number?_letter (by decide) _).symm.trans hnumber
      · exact hchar _ rfl

/-! ## Words -/

theorem raw?_none {keep : Char → Bool}
    (h : ∀ c, cs.head? = some c → c ≠ '#' ∧ c ≠ '"') : raw? keep cs = none := by
  cases cs with
  | nil => rfl
  | cons c cs =>
    obtain ⟨hhash, hquote⟩ := h c rfl
    unfold raw?
    simp only [List.dropWhile_cons_of_neg (p := (· == '#')) (by simpa using hhash)]
    split
    · next heq => exact absurd (List.cons.inj heq).1 hquote
    · rfl

theorem ne_of_isIdentStart {c d : Char} (h : Text.isIdentStart c = true)
    (hd : Text.isIdentStart d = false) : c ≠ d := by
  rintro rfl
  rw [h] at hd
  cases hd

theorem ne_of_isIdentContinue {c d : Char} (h : Text.isIdentContinue c = true)
    (hd : Text.isIdentContinue d = false) : c ≠ d := by
  rintro rfl
  rw [h] at hd
  cases hd

theorem isDigit_of_isIdentStart {c : Char} (h : Text.isIdentStart c = true) :
    isDigit c = false := by
  have hascii : isDigit c = true → c.toNat < 128 := fun hd => by
    have hle : c ≤ '9' := (by simpa [isDigit] using hd : _ ∧ _).2
    exact Nat.lt_of_le_of_lt (UInt32.le_iff_toNat_le.mp hle) (by decide)
  have hp : isDigit c = true → _ := fun hd =>
    of_ascii (p := fun c => !(isDigit c && Text.isIdentStart c)) (by decide +kernel) (hascii hd)
  rw [Bool.eq_false_iff]
  intro hd
  simpa [hd, h] using hp hd

/-- What is left of a word, and what follows it, begins with no quote. -/
theorem not_quote_of_word {w : List Char} (hw : ∀ c ∈ w, Text.isIdentContinue c = true)
    (ha : Ends after) : ∀ c, (w ++ after).head? = some c → c ≠ '#' ∧ c ≠ '"' ∧ c ≠ '\'' := by
  intro c hc
  cases w with
  | nil => rcases ha c hc with rfl | rfl | rfl <;> decide
  | cons d w =>
    obtain rfl : d = c := Option.some.inj hc
    have hd := hw d List.mem_cons_self
    exact ⟨ne_of_isIdentContinue hd (by decide), ne_of_isIdentContinue hd (by decide),
      ne_of_isIdentContinue hd (by decide)⟩

/-- No literal begins where a word does. -/
theorem literal?_word {w : List Char} (hw : IsWord w) (ha : Ends after) :
    literal? (w ++ after) = none := by
  obtain ⟨c, w, rfl, hc, hw⟩ := hw
  have hnext := not_quote_of_word hw ha
  have hraw : ∀ keep, raw? keep (w ++ after) = none := fun keep =>
    raw?_none fun d hd => ⟨(hnext d hd).1, (hnext d hd).2.1⟩
  have hraw' : ∀ keep cs, w ++ after = 'r' :: cs → raw? keep cs = none := by
    intro keep cs hcs
    cases w with
    | nil =>
      rcases ha 'r' (by rw [← List.nil_append after, hcs]; rfl) with h | h | h <;> cases h
    | cons d w =>
      obtain ⟨-, rfl⟩ := List.cons.inj hcs
      refine raw?_none fun d hd => ?_
      have hrest := not_quote_of_word (fun e he => hw e (List.mem_cons_of_mem _ he)) ha d hd
      exact ⟨hrest.1, hrest.2.1⟩
  have hhead : ∀ d cs, w ++ after = d :: cs → d ≠ '"' ∧ d ≠ '\'' := fun d cs hcs =>
    (hnext d (by rw [hcs]; rfl)).2
  rw [List.cons_append]
  unfold literal?
  split
  · next heq => exact absurd (List.cons.inj heq).1 (ne_of_isIdentStart hc (by decide))
  · next heq =>
    obtain ⟨-, rfl⟩ := List.cons.inj heq
    simp only [hraw, Option.map_none]
  · next heq => exact absurd rfl (hhead _ _ (List.cons.inj heq).2).1
  · next heq => simp only [hraw' _ _ (List.cons.inj heq).2, Option.map_none]
  · next heq => exact absurd rfl (hhead _ _ (List.cons.inj heq).2).1
  · next heq => simp only [hraw' _ _ (List.cons.inj heq).2, Option.map_none]
  · next heq => exact absurd rfl (hhead _ _ (List.cons.inj heq).2).2
  · next heq => exact absurd (List.cons.inj heq).1 (ne_of_isIdentStart hc (by decide))
  · exact congrArg (Option.map fun rest => (LiteralKind.number, rest))
      (number?_letter (isDigit_of_isIdentStart hc) (w ++ after))

/-- No literal begins where a raw word does. -/
theorem literal?_raw {w : List Char} (hw : IsWord w) (after : List Char) :
    literal? ('r' :: '#' :: (w ++ after)) = none := by
  obtain ⟨c, w, rfl, hc, -⟩ := hw
  have hhash : c ≠ '#' := ne_of_isIdentStart hc (by decide)
  have hquote : c ≠ '"' := ne_of_isIdentStart hc (by decide)
  have hraw : ∀ keep, raw? keep ('#' :: (c :: w ++ after)) = none := fun keep => by
    unfold raw?
    simp only [List.dropWhile_cons_of_pos (p := (· == '#')) (a := '#') rfl, List.cons_append,
      List.dropWhile_cons_of_neg (p := (· == '#')) (a := c) (by simpa using hhash)]
    split
    · next heq => exact absurd (List.cons.inj heq).1 hquote
    · rfl
  unfold literal?
  simp only [hraw, Option.map_none]

end Lexer

/-- The identifier can be written. -/
structure Ident.IsWritten (id : Ident) : Prop where
  word : Lexer.IsWord id.name.toList
  raw : id.raw = true → id.name ∉ Ident.unrawable

namespace Lexer

variable {cs rest after : List Char} {t : Token}

/-- The words that begin like a literal. -/
def literalLeads : List String :=
  ["r\"", "r#\"", "r##", "b\"", "b'", "br\"", "br#", "c\"", "cr\"", "cr#"]

theorem word?_eq (h : ∀ lead ∈ literalLeads, ¬ lead.toList <+: cs) : word? cs = anyWord? cs := by
  unfold word?
  rw [if_neg]
  intro hany
  obtain ⟨lead, hlead, hstart⟩ := List.any_eq_true.mp hany
  exact h lead hlead (List.isPrefixOf_iff_prefix.mp hstart)

/-- What a word begins with has no other characters than the word. -/
theorem prefix_word {w lead : List Char} (h : lead <+: w ++ after) (ha : Ends after)
    (hlead : ∀ c ∈ lead, c ≠ ' ' ∧ c ≠ ')' ∧ c ≠ ']') : lead <+: w := by
  induction w generalizing lead with
  | nil =>
    cases lead with
    | nil => exact List.nil_prefix
    | cons c lead =>
      obtain ⟨more, hmore⟩ := h
      have hend := ha c (by rw [← List.nil_append after, ← hmore]; rfl)
      have hc := hlead c List.mem_cons_self
      rcases hend with rfl | rfl | rfl <;> simp at hc
  | cons d w ih =>
    cases lead with
    | nil => exact List.nil_prefix
    | cons c lead =>
      rw [List.cons_append, List.cons_prefix_cons] at h
      rw [List.cons_prefix_cons]
      exact ⟨h.1, ih h.2 fun e he => hlead e (List.mem_cons_of_mem c he)⟩

theorem word?_word {w : List Char} (hw : IsWord w) (ha : Ends after) :
    word? (w ++ after) = some (⟨false, String.ofList w⟩, after) := by
  rw [word?_eq]
  · obtain ⟨c, cs, rfl, hc, hcs⟩ := id hw
    unfold anyWord?
    split
    · next heq =>
      have htail : cs ++ after = '#' :: _ := (List.cons.inj heq).2
      exact absurd rfl (not_quote_of_word hcs ha '#' (by rw [htail]; rfl)).1
    · rw [wordRest?_of_ends hw ha]
      rfl
  · intro lead hlead hp
    obtain ⟨c, cs, rfl, hc, hcs⟩ := hw
    have hends : literalLeads.all (·.toList.all fun c => c ≠ ' ' && c ≠ ')' && c ≠ ']') = true := by
      decide
    have hmarks : literalLeads.all (·.toList.tail.any fun c => !Text.isIdentContinue c) = true := by
      decide
    have hlead' : ∀ c ∈ lead.toList, c ≠ ' ' ∧ c ≠ ')' ∧ c ≠ ']' := fun c hc => by
      simpa [and_assoc] using List.all_eq_true.mp (List.all_eq_true.mp hends lead hlead) c hc
    obtain ⟨more, hmore⟩ := prefix_word hp ha hlead'
    obtain ⟨d, hd, hmark⟩ := List.any_eq_true.mp (List.all_eq_true.mp hmarks lead hlead)
    rw [Bool.not_eq_true'] at hmark
    cases hl : lead.toList with
    | nil =>
      rw [hl] at hd
      cases hd
    | cons e tail =>
      rw [hl] at hd hmore
      have hmem : d ∈ cs := by
        rw [← (List.cons.inj hmore).2]
        exact List.mem_append_left _ hd
      rw [hcs d hmem] at hmark
      cases hmark

theorem word?_raw {w : List Char} (hw : IsWord w) (hraw : String.ofList w ∉ Ident.unrawable)
    (ha : Ends after) :
    word? ('r' :: '#' :: (w ++ after)) = some (⟨true, String.ofList w⟩, after) := by
  rw [word?_eq]
  · rw [anyWord?, wordRest?_of_ends hw ha]
    simp [hraw]
  · obtain ⟨c, cs, rfl, hc, -⟩ := hw
    have hhash : '#' ≠ c := (ne_of_isIdentStart hc (by decide)).symm
    have hquote : '"' ≠ c := (ne_of_isIdentStart hc (by decide)).symm
    intro lead hlead hp
    simp only [literalLeads, List.mem_cons, List.not_mem_nil, or_false] at hlead
    rcases hlead with rfl | rfl | rfl | rfl | rfl | rfl | rfl | rfl | rfl | rfl <;>
      simp [hhash, hquote] at hp

/-! ## Tokens -/

/-- The token is read from its spelling in front of the text. -/
structure Reads (t : Token) (rest : List Char) : Prop where
  blank : blank (t.chars ++ rest) = .none
  token : token? (t.chars ++ rest) = some (t, rest)

/-- The token is read from its spelling where that ends. -/
def IsSpelled (t : Token) : Prop := ∀ after, Ends after → Reads t after

theorem blank_of_not_space {c : Char} (hc : c ≠ '/') (hs : isSpace c = false) (cs : List Char) :
    blank (c :: cs) = .none := by
  unfold blank
  split
  all_goals first
    | next heq => exact absurd (List.cons.inj heq).1 hc
    | skip
  · next heq =>
    obtain ⟨rfl, rfl⟩ := List.cons.inj heq
    simp [hs]
  · next heq => cases heq

theorem isSpace_of_isIdentStart {c : Char} (h : Text.isIdentStart c = true) :
    isSpace c = false := by
  have hblank : Text.isBlank c = false := by
    rw [Bool.eq_false_iff]
    intro hb
    rw [Text.isIdentStart_of_isBlank hb] at h
    cases h
  have hleft : c ≠ '\u200e' := by
    rintro rfl
    exact absurd h (by decide +kernel)
  have hright : c ≠ '\u200f' := by
    rintro rfl
    exact absurd h (by decide +kernel)
  simp [isSpace, hblank, hleft, hright]

theorem delimiter?_of_isIdentStart {c : Char} (h : Text.isIdentStart c = true) :
    delimiter? c = none := by
  unfold delimiter?
  split
  all_goals first
    | rfl
    | exact absurd h (by decide)

theorem isPunct_of_isIdentStart {c : Char} (h : Text.isIdentStart c = true) :
    isPunct c = false := by
  have hall : "~!@#$%^&*-=+|;:,<.>/?'".toList.all (fun d => !Text.isIdentStart d) = true := by
    decide
  rw [Bool.eq_false_iff]
  intro hp
  have hnot := List.all_eq_true.mp hall c (List.contains_iff_mem.mp hp)
  simp [h] at hnot

theorem punct?_none {c : Char} (h : isPunct c = false) (cs : List Char) :
    punct? (c :: cs) = none := by
  have hchar : punctChar? (c :: cs) = none := by
    unfold punctChar?
    split
    · rfl
    · rfl
    · next heq =>
      obtain ⟨rfl, rfl⟩ := List.cons.inj heq
      simp [h]
    · rfl
  rw [punct?, hchar, Option.bind_none]

theorem token?_of_word {c : Char} {id : Ident} (hc : Text.isIdentStart c = true)
    (hliteral : literal? (c :: cs) = none) (hword : word? (c :: cs) = some (id, rest)) :
    token? (c :: cs) = some (.word id, rest) := by
  unfold token?
  simp only [List.head?_cons, Option.bind_some, delimiter?_of_isIdentStart hc, hliteral,
    punct?_none (isPunct_of_isIdentStart hc), Option.orElse_none, hword, Option.map_some]

theorem isSpelled_word {id : Ident} (h : id.IsWritten) : IsSpelled (.word id) := by
  intro after ha
  obtain ⟨raw, name⟩ := id
  obtain ⟨hw, hraw⟩ := h
  have hblank : ∀ {c : Char} (cs : List Char), Text.isIdentStart c = true →
      blank (c :: cs) = .none := fun cs hc =>
    blank_of_not_space (ne_of_isIdentStart hc (by decide)) (isSpace_of_isIdentStart hc) cs
  cases raw with
  | false =>
    have hliteral := literal?_word hw ha
    have hword := word?_word hw ha
    rw [String.ofList_toList] at hword
    have hchars : (Token.word ⟨false, name⟩).chars = name.toList := rfl
    obtain ⟨c, cs, hname, hc, -⟩ := hw
    change name.toList = c :: cs at hname
    rw [hname] at hliteral hword
    refine ⟨?_, ?_⟩
    · rw [hchars, hname]
      exact hblank _ hc
    · rw [hchars, hname]
      exact token?_of_word hc hliteral hword
  | true =>
    have hword := word?_raw hw (by rw [String.ofList_toList]; exact hraw rfl) ha
    rw [String.ofList_toList] at hword
    have hchars : (Token.word ⟨true, name⟩).chars = 'r' :: '#' :: name.toList := by
      simp [Token.chars, Ident.text]
    refine ⟨?_, ?_⟩
    · rw [hchars]
      exact hblank _ (by decide)
    · rw [hchars]
      exact token?_of_word (by decide) (literal?_raw hw after) hword

theorem isSpelled_opening (d : Delimiter) (after : List Char) : Reads (.opening d) after := by
  cases d <;> exact ⟨blank_of_not_space (by decide) (by decide) _, rfl⟩

theorem isSpelled_closing (d : Delimiter) (after : List Char) : Reads (.closing d) after := by
  cases d <;> exact ⟨blank_of_not_space (by decide) (by decide) _, rfl⟩

/-! ### Punctuation -/

section

variable {c d : Char} (hc : isPunct c = true)
include hc

theorem of_isPunct {p : Char → Bool} (hp : "~!@#$%^&*-=+|;:,<.>/?'".toList.all p = true) :
    p c = true :=
  List.all_eq_true.mp hp c (List.contains_iff_mem.mp hc)

theorem literal?_punct (hquote : c ≠ '\'') (cs : List Char) : literal? (c :: cs) = none := by
  have hdigit : isDigit c = false := by
    simpa using of_isPunct hc (p := fun c => !isDigit c) (by decide)
  have hlead : ['"', 'r', 'b', 'c'].contains c = false := by
    simpa using of_isPunct hc (p := fun c => !(['"', 'r', 'b', 'c'].contains c)) (by decide)
  rw [literal?_default, number?_letter hdigit]
  · rfl
  · intro e he
    obtain rfl : c = e := Option.some.inj he
    simpa [hquote] using hlead

theorem delimiter?_of_isPunct : delimiter? c = none := by
  simpa using of_isPunct hc (p := fun c => (delimiter? c).isNone) (by decide)

theorem blank_punct (hnext : c = '/' → ∀ e, cs.head? = some e → e ≠ '/' ∧ e ≠ '*') :
    blank (c :: cs) = .none := by
  have hspace : isSpace c = false := by
    simpa using of_isPunct hc (p := fun c => !isSpace c) (by decide)
  by_cases hslash : c = '/'
  · subst hslash
    cases cs with
    | nil => rfl
    | cons e cs =>
      obtain ⟨hline, hblock⟩ := hnext rfl e rfl
      unfold blank
      split
      all_goals first
        | next heq => exact absurd (List.cons.inj (List.cons.inj heq).2).1 hline
        | next heq => exact absurd (List.cons.inj (List.cons.inj heq).2).1 hblock
        | next heq =>
          obtain ⟨rfl, rfl⟩ := List.cons.inj heq
          simp [hspace]
        | next heq => cases heq
  · exact blank_of_not_space hslash hspace cs

theorem punctChar?_eq (hnext : c = '/' → ∀ e, cs.head? = some e → e ≠ '/' ∧ e ≠ '*') :
    punctChar? (c :: cs) = some (c, cs) := by
  unfold punctChar?
  split
  · next heq =>
    obtain ⟨rfl, rfl⟩ := List.cons.inj heq
    exact absurd rfl (hnext rfl _ rfl).1
  · next heq =>
    obtain ⟨rfl, rfl⟩ := List.cons.inj heq
    exact absurd rfl (hnext rfl _ rfl).2
  · next heq =>
    obtain ⟨rfl, rfl⟩ := List.cons.inj heq
    rw [if_pos hc]
  · next heq => cases heq

theorem reads_punct (hquote : c ≠ '\'')
    (hnext : c = '/' → ∀ e, rest.head? = some e → e ≠ '/' ∧ e ≠ '*') :
    Reads (.punct c (punctChar? rest).isSome) rest := by
  refine ⟨blank_punct hc hnext, ?_⟩
  change token? (c :: rest) = _
  unfold token?
  simp only [List.head?_cons, Option.bind_some, delimiter?_of_isPunct hc, literal?_punct hc hquote]
  rw [punct?, punctChar?_eq hc hnext]
  simp [hquote]

theorem isSpelled_punct (hquote : c ≠ '\'') : IsSpelled (.punct c false) := by
  intro after ha
  have hnone : punctChar? after = none := by
    rcases ha.cases with rfl | ⟨e, more, rfl, rfl | rfl | rfl⟩ <;> simp [punctChar?, isPunct]
  have hreads : Reads (.punct c (punctChar? after).isSome) after :=
    reads_punct hc hquote fun _ e he => by rcases ha e he with rfl | rfl | rfl <;> decide
  rwa [hnone] at hreads

/-- The first character of an operator. -/
theorem reads_joint (hquote : c ≠ '\'') (hslash : c ≠ '/') (hd : isPunct d = true)
    (hd' : d ≠ '/') (after : List Char) : Reads (.punct c true) (d :: after) := by
  have hsome : punctChar? (d :: after) = some (d, after) :=
    punctChar?_eq hd fun he => absurd he hd'
  have hreads : Reads (.punct c (punctChar? (d :: after)).isSome) (d :: after) :=
    reads_punct hc hquote fun he => absurd he hslash
  rwa [hsome] at hreads

end

end Lexer

end TaggedRows
