import TaggedRows.Proofs.Tag.Spelling
import TaggedRows.Tag.Word

/-!
# The bodies that can be decoded

- **Digits** (`digits?_eq_some`): exactly numerals are read, to their value.
- **Units** (`unit?_eq_some`): exactly the ways of writing a character are read as one.
- **Bodies** (`Decomposes`, `unquote_eq_some`): a body is decoded if it consists of units, and to
  what these spell. It consists of them in one way only (`Decomposes.unique`).
- **Words** (`unquoteInWords_eq`): whatever the body, no code of its escapes overflows a word.
-/

namespace TaggedRows.Tag

/-! ## Digits -/

theorem hexDigit?_eq_some_iff {v : Nat} {c : Char} : hexDigit? c = some v ↔ IsHexDigit v c := by
  constructor
  · intro h
    have hall : ∀ n < 128, ∀ v < 16, hexDigit? (Char.ofNat n) = some v →
        Char.ofNat n = v.digitChar ∨ Char.ofNat n = v.digitChar.toUpper := by decide +kernel
    have hlt := hexDigit?_lt h
    have hc := hall c.toNat (toNat_lt_of_hexDigit? h) v hlt
    rw [Char.ofNat_toNat] at hc
    exact ⟨hlt, hc h⟩
  · exact hexDigit?_eq_some

theorem octalDigit?_eq_some_iff {v : Nat} {c : Char} :
    octalDigit? c = some v ↔ IsOctalDigit v c := by
  constructor
  · intro h
    have hupper : ∀ v < 8, v.digitChar.toUpper = v.digitChar := by decide
    have hlt := octalDigit?_lt h
    obtain ⟨-, hc | hc⟩ := hexDigit?_eq_some_iff.mp (hexDigit?_of_octalDigit? h)
    · exact ⟨hlt, hc⟩
    · exact ⟨hlt, hc.trans (hupper v hlt)⟩
  · exact octalDigit?_eq_some

/-- Exactly digits are read, to their value on top of that of the digits before them. -/
theorem digits?_eq_some {digit : Nat → Char → Prop} {digit? : Char → Option Nat}
    (hdigit : ∀ v c, digit? c = some v ↔ digit v c) {base n acc v : Nat} {cs rest : List Char} :
    digits? digit? base n acc cs = some (v, rest) ↔ ∃ vs ds, List.Forall₂ digit vs ds ∧
      vs.length = n ∧ numeralValue base vs acc = v ∧ cs = ds ++ rest := by
  constructor
  · intro h
    induction n generalizing acc cs with
    | zero =>
      simp only [digits?, Option.some.injEq, Prod.mk.injEq] at h
      exact ⟨[], [], .nil, rfl, h.1, h.2⟩
    | succ n ih =>
      cases cs with
      | nil => cases h
      | cons c cs =>
        cases hd : digit? c with
        | none => simp [digits?, hd] at h
        | some d =>
          simp only [digits?, hd] at h
          obtain ⟨vs, ds, hvs, rfl, hvalue, rfl⟩ := ih h
          exact ⟨d :: vs, c :: ds, .cons ((hdigit d c).mp hd) hvs, rfl, hvalue, rfl⟩
  · rintro ⟨vs, ds, hvs, rfl, rfl, rfl⟩
    exact digits?_append (fun v c => (hdigit v c).mpr) hvs base acc rest

theorem hexDigits?_eq_some {len n : Nat} {cs rest : List Char} :
    digits? hexDigit? 16 len 0 cs = some (n, rest) ↔
      ∃ ds, IsNumeral IsHexDigit 16 len n ds ∧ cs = ds ++ rest := by
  rw [digits?_eq_some fun _ _ => hexDigit?_eq_some_iff]
  constructor
  · rintro ⟨vs, ds, hvs, hlen, hvalue, rfl⟩
    exact ⟨ds, ⟨vs, hvs, hlen, hvalue⟩, rfl⟩
  · rintro ⟨ds, ⟨vs, hvs, hlen, hvalue⟩, rfl⟩
    exact ⟨vs, ds, hvs, hlen, hvalue, rfl⟩

/-! ## Units -/

section

variable {c e : Char} {n : Nat} {cs rest : List Char}

theorem scalar?_eq_some : scalar? n = some c ↔ c.toNat = n := by
  constructor
  · intro h
    by_cases hv : n.isValidChar
    · rw [scalar?, dif_pos hv] at h
      cases h
      rfl
    · rw [scalar?, dif_neg hv] at h
      cases h
  · rintro rfl
    exact scalar?_toNat c

theorem ascii?_eq_some : ascii? n = some c ↔ c.toNat = n ∧ n ≤ 0x7f := by
  rw [ascii?, Option.ite_none_right_eq_some, scalar?_eq_some, and_comm]

theorem coded?_eq_some {char? : Nat → Option Char} {r : Option (Nat × List Char)} :
    coded? char? r = some (c, rest) ↔ ∃ n, r = some (n, rest) ∧ char? n = some c := by
  cases r with
  | none => simp [coded?]
  | some found => simp [coded?, Prod.ext_iff, and_comm]

/-- What is read as a code of hexadecimal digits begins with them. -/
theorem exists_of_hexCode {char? : Nat → Option Char} {len : Nat}
    (h : coded? char? (digits? hexDigit? 16 len 0 cs) = some (c, rest)) :
    ∃ n ds, char? n = some c ∧ IsNumeral IsHexDigit 16 len n ds ∧ cs = ds ++ rest := by
  obtain ⟨n, hn, hc⟩ := coded?_eq_some.mp h
  obtain ⟨ds, hds, rfl⟩ := hexDigits?_eq_some.mp hn
  exact ⟨n, ds, hc, hds, rfl⟩

theorem mem_escapeLetters (h : letterEscape? e = some c) : (e, c) ∈ escapeLetters := by
  unfold letterEscape? at h
  split at h <;> cases h <;> decide

/-- What is read behind a backslash is the rest of a spelling of the character. -/
theorem exists_of_escape? (h : escape? e cs = some (c, rest)) :
    ∃ ds, Spells c ('\\' :: e :: ds) ∧ cs = ds ++ rest := by
  unfold escape? at h
  split at h
  · next he =>
    subst he
    obtain ⟨n, ds, hc, hds, rfl⟩ := exists_of_hexCode h
    obtain ⟨rfl, hle⟩ := ascii?_eq_some.mp hc
    exact ⟨ds, .hex hle hds, rfl⟩
  split at h
  · next he =>
    subst he
    obtain ⟨n, ds, hc, hds, rfl⟩ := exists_of_hexCode h
    obtain rfl := scalar?_eq_some.mp hc
    exact ⟨ds, .short hds, rfl⟩
  split at h
  · next he =>
    subst he
    obtain ⟨n, ds, hc, hds, rfl⟩ := exists_of_hexCode h
    obtain rfl := scalar?_eq_some.mp hc
    exact ⟨ds, .long hds, rfl⟩
  split at h
  · next d hd =>
    obtain ⟨n, hn, hc⟩ := coded?_eq_some.mp h
    obtain ⟨vs, ds, hvs, hlen, rfl, rfl⟩ :=
      (digits?_eq_some fun _ _ => octalDigit?_eq_some_iff).mp hn
    obtain ⟨hvalue, hle⟩ := ascii?_eq_some.mp hc
    -- The character behind the backslash is the first of the three digits.
    have hnumeral : IsNumeral IsOctalDigit 8 3 c.toNat (e :: ds) := by
      refine ⟨d :: vs, .cons (octalDigit?_eq_some_iff.mp hd) hvs, by simp [hlen], ?_⟩
      simpa [numeralValue] using hvalue.symm
    exact ⟨ds, .octal (hvalue ▸ hle) hnumeral, rfl⟩
  · obtain ⟨d, hd, he⟩ := Option.map_eq_some_iff.mp h
    cases he
    exact ⟨[], .letter (mem_escapeLetters hd), rfl⟩

/-- A unit is read if it spells a character, and as that. -/
theorem unit?_eq_some : unit? cs = some (c, rest) ↔ ∃ unit, Spells c unit ∧ cs = unit ++ rest := by
  constructor
  · intro h
    cases cs with
    | nil => cases h
    | cons d cs =>
      by_cases hb : d = '\\'
      · subst hb
        cases cs with
        | nil => cases h
        | cons e cs =>
          obtain ⟨ds, hspells, rfl⟩ := exists_of_escape? h
          exact ⟨_, hspells, rfl⟩
      · by_cases hn : d = '\n'
        · simp [unit?, hn] at h
        · simp only [unit?, if_neg hb, if_neg hn, Option.some.injEq, Prod.mk.injEq] at h
          obtain ⟨rfl, rfl⟩ := h
          exact ⟨[d], .self hb hn, rfl⟩
  · rintro ⟨unit, hspells, rfl⟩
    exact unit?_append hspells rest

end

/-! ## Bodies -/

/-- The body consists of the units, one after the other, each with the character that it spells. -/
structure Decomposes (body : List Char) (units : List (Char × List Char)) : Prop where
  spells : ∀ u ∈ units, Spells u.1 u.2
  join : (units.map Prod.snd).flatten = body

theorem spellsAll_iff {value body : List Char} :
    SpellsAll value body ↔ ∃ units, Decomposes body units ∧ value = units.map Prod.fst := by
  constructor
  · intro h
    induction h with
    | nil => exact ⟨[], ⟨by simp, rfl⟩, rfl⟩
    | @cons c unit value body hu _ ih =>
      obtain ⟨units, ⟨hspells, rfl⟩, rfl⟩ := ih
      exact ⟨(c, unit) :: units, ⟨List.forall_mem_cons.mpr ⟨hu, hspells⟩, rfl⟩, rfl⟩
  · rintro ⟨units, ⟨hspells, rfl⟩, rfl⟩
    induction units with
    | nil => exact .nil
    | cons u units ih =>
      obtain ⟨hu, hunits⟩ := List.forall_mem_cons.mp hspells
      exact .cons hu (ih hunits)

/-- A body that is decoded spells its value. -/
theorem spellsAll_of_unquote {body value : List Char} (h : unquote body = some value) :
    SpellsAll value body := by
  fun_induction unquote body generalizing value with
  | case1 body hnil =>
    obtain rfl : body = [] := by simpa using hnil
    cases h
    exact .nil
  | case2 => cases h
  | case3 body _ c rest hunit ih =>
    obtain ⟨value, hvalue, rfl⟩ := Option.map_eq_some_iff.mp h
    obtain ⟨unit, hspells, rfl⟩ := unit?_eq_some.mp hunit
    exact .cons hspells (ih hvalue)

theorem unquote_eq_some {body value : List Char} : unquote body = some value ↔
    ∃ units, Decomposes body units ∧ value = units.map Prod.fst := by
  rw [← spellsAll_iff]
  exact ⟨spellsAll_of_unquote, unquote_of_spellsAll⟩

theorem Decomposes.unit? {c : Char} {body unit : List Char} {units : List (Char × List Char)}
    (h : Decomposes body ((c, unit) :: units)) :
    ∃ rest, body = unit ++ rest ∧ Decomposes rest units ∧ Tag.unit? body = some (c, rest) := by
  obtain ⟨hspells, rfl⟩ := h
  obtain ⟨hunit, hunits⟩ := List.forall_mem_cons.mp hspells
  exact ⟨_, rfl, ⟨hunits, rfl⟩, unit?_append hunit _⟩

/-- What a body begins with decides what its first unit is. -/
theorem Decomposes.unique {body : List Char} {units units' : List (Char × List Char)}
    (h : Decomposes body units) (h' : Decomposes body units') : units = units' := by
  induction units generalizing body units' with
  | nil =>
    obtain ⟨-, rfl⟩ := h
    cases units' with
    | nil => rfl
    | cons u' units' =>
      obtain ⟨rest, -, -, hread⟩ := h'.unit?
      cases hread
  | cons u units ih =>
    obtain ⟨rest, hbody, hrest, hread⟩ := h.unit?
    cases units' with
    | nil =>
      obtain ⟨-, rfl⟩ := h'
      cases hread
    | cons u' units' =>
      obtain ⟨rest', hbody', hrest', hread'⟩ := h'.unit?
      obtain ⟨hc, rfl⟩ : u.1 = u'.1 ∧ rest = rest' := by
        simpa using hread.symm.trans hread'
      have hunit : u.2 = u'.2 := List.append_cancel_right (hbody.symm.trans hbody')
      rw [Prod.ext hc hunit, ih hrest hrest']

/-! ## Words -/

/-- With its codes in words, the decoding is the same, and none of them overflows. -/
theorem unquoteInWords_eq (body : List Char) : unquoteInWords body = .ok (unquote body) := by
  fun_induction unquote body with
  | case1 body hnil =>
    rw [unquoteInWords, if_pos hnil]
  | case2 body hne hunit =>
    rw [unquoteInWords, if_neg hne]
    split
    · next h => simp [unitInWords_eq] at h
    · rfl
    · next h => simp [unitInWords_eq, hunit] at h
  | case3 body hne c rest hunit ih =>
    rw [unquoteInWords, if_neg hne]
    split
    · next h => simp [unitInWords_eq] at h
    · next h => simp [unitInWords_eq, hunit] at h
    · next h =>
      rw [unitInWords_eq, hunit] at h
      cases h
      rw [ih]
      rfl

/-- A body is decoded exactly if it consists of units, to the characters that these spell. It
consists of them in one way at most, and no code in it overflows a word of 32 bits, whether or not
the body is decoded. -/
theorem unquote_decodes_units (body : List Char) :
    (∀ value, unquote body = some value ↔
      ∃ units, Decomposes body units ∧ value = units.map Prod.fst) ∧
    (∀ units units', Decomposes body units → Decomposes body units' → units = units') ∧
    unquoteInWords body = .ok (unquote body) :=
  ⟨fun _ => unquote_eq_some, fun _ _ h h' => h.unique h', unquoteInWords_eq body⟩

/-- A plain digit behind three octal ones, and a code that fills all of its eight digits. -/
theorem unquote_decodes_units_mixed :
    Decomposes "\\1017\\U0010FFFF".toList
      [('A', "\\101".toList), ('7', ['7']), (Char.ofNat 0x10ffff, "\\U0010FFFF".toList)] ∧
    unquote "\\1017\\U0010FFFF".toList = some ['A', '7', Char.ofNat 0x10ffff] ∧
    ∀ units, Decomposes "\\1017\\U0010FFFF".toList units → units.length = 3 := by
  have hoctal : Spells 'A' "\\101".toList :=
    .octal (by decide) ⟨[1, 0, 1], by unfold IsOctalDigit; decide, rfl, by decide⟩
  have hplain : Spells '7' ['7'] := .self (by decide) (by decide)
  have hlong : Spells (Char.ofNat 0x10ffff) "\\U0010FFFF".toList :=
    .long ⟨[0, 0, 1, 0, 15, 15, 15, 15], by unfold IsHexDigit; decide, rfl, by decide⟩
  have h : Decomposes "\\1017\\U0010FFFF".toList
      [('A', "\\101".toList), ('7', ['7']), (Char.ofNat 0x10ffff, "\\U0010FFFF".toList)] :=
    ⟨List.forall_mem_cons.mpr ⟨hoctal, List.forall_mem_cons.mpr ⟨hplain,
      List.forall_mem_cons.mpr ⟨hlong, List.forall_mem_nil _⟩⟩⟩, by decide⟩
  obtain ⟨hdecodes, hunique, -⟩ := unquote_decodes_units "\\1017\\U0010FFFF".toList
  exact ⟨h, (hdecodes _).mpr ⟨_, h, rfl⟩, fun units h' => by rw [hunique units _ h' h]; rfl⟩

end TaggedRows.Tag
