import Mathlib.Data.List.Forall2
import TaggedRows.Proofs.Tag.Grammar

/-!
# Spellings of values and of tags

- **Numerals** (`IsNumeral`): digits of a base, the most significant first. `digits?` gives their
  value (`digits?_append`).
- **Units** (`Spells`): the ways of writing one character in a body; `unit?` reads each of them
  back (`unit?_append`).
- **Values** (`SpellsAll`, `Encodes`): the ways of writing a text in a body, and in one between
  quotes. What a body spells is what it is decoded to (`unquote_of_spellsAll`).
- **Tags** (`Written`): the ways of writing a list of names and values. A lookup in any of them
  gives the first value with the wanted name (`lookup_of_written`).
-/

namespace TaggedRows.Tag

/-! ## Numerals -/

/-- A digit of base 16, in either case. -/
def IsHexDigit (v : Nat) (c : Char) : Prop :=
  v < 16 ∧ (c = v.digitChar ∨ c = v.digitChar.toUpper)

/-- A digit of base 8. -/
def IsOctalDigit (v : Nat) (c : Char) : Prop := v < 8 ∧ c = v.digitChar

/-- The value of digits on top of the value of those before them. -/
def numeralValue (base : Nat) (vs : List Nat) (acc : Nat) : Nat :=
  vs.foldl (fun n v => n * base + v) acc

/-- The characters are `len` digits that denote `n`. -/
def IsNumeral (digit : Nat → Char → Prop) (base len n : Nat) (cs : List Char) : Prop :=
  ∃ vs, List.Forall₂ digit vs cs ∧ vs.length = len ∧ numeralValue base vs 0 = n

theorem hexDigit?_eq_some {v : Nat} {c : Char} (h : IsHexDigit v c) : hexDigit? c = some v := by
  have hall : ∀ v < 16, hexDigit? v.digitChar = some v ∧
      hexDigit? v.digitChar.toUpper = some v := by decide
  obtain ⟨hv, rfl | rfl⟩ := h
  · exact (hall v hv).1
  · exact (hall v hv).2

theorem octalDigit?_eq_some {v : Nat} {c : Char} (h : IsOctalDigit v c) :
    octalDigit? c = some v := by
  have hall : ∀ v < 8, octalDigit? v.digitChar = some v := by decide
  obtain ⟨hv, rfl⟩ := h
  exact hall v hv

/-- Digits are read to their value, whatever follows them. -/
theorem digits?_append {digit : Nat → Char → Prop} {digit? : Char → Option Nat}
    (hdigit : ∀ v c, digit v c → digit? c = some v) {vs : List Nat} {cs : List Char}
    (h : List.Forall₂ digit vs cs) (base acc : Nat) (rest : List Char) :
    digits? digit? base vs.length acc (cs ++ rest) = some (numeralValue base vs acc, rest) := by
  induction h generalizing acc with
  | nil => rfl
  | @cons v c vs cs hc _ ih =>
    rw [List.cons_append, List.length_cons, digits?, hdigit v c hc]
    exact ih (acc * base + v)

theorem hexDigits?_eq {len n : Nat} {cs : List Char} (h : IsNumeral IsHexDigit 16 len n cs)
    (rest : List Char) : digits? hexDigit? 16 len 0 (cs ++ rest) = some (n, rest) := by
  obtain ⟨vs, hvs, rfl, rfl⟩ := h
  exact digits?_append (fun _ _ hd => hexDigit?_eq_some hd) hvs 16 0 rest

theorem IsNumeral.exists_cons {digit : Nat → Char → Prop} {base len n : Nat} {cs : List Char}
    (h : IsNumeral digit base (len + 1) n cs) : ∃ d ds, cs = d :: ds := by
  obtain ⟨vs, hvs, hlen, -⟩ := h
  cases hvs with
  | nil => simp at hlen
  | cons => exact ⟨_, _, rfl⟩

/-- Every character of a numeral is a digit. -/
theorem IsNumeral.exists_digit {digit : Nat → Char → Prop} {base len n : Nat} {cs : List Char}
    (h : IsNumeral digit base len n cs) : ∀ c ∈ cs, ∃ v, digit v c := by
  obtain ⟨vs, hvs, -, -⟩ := h
  induction hvs with
  | nil => simp
  | cons hd _ ih =>
    intro c hc
    rcases List.mem_cons.mp hc with rfl | hc
    · exact ⟨_, hd⟩
    · exact ih c hc

/-! ## Units -/

/-- The letters of the escapes that consist of one letter, with what they stand for. -/
def escapeLetters : List (Char × Char) :=
  [('a', '\x07'), ('b', '\x08'), ('f', '\x0c'), ('n', '\n'), ('r', '\r'), ('t', '\t'),
    ('v', '\x0b'), ('\\', '\\'), ('"', '"')]

/-- The ways of writing one character in a body. -/
inductive Spells (c : Char) : List Char → Prop where
  | self (hb : c ≠ '\\') (hn : c ≠ '\n') : Spells c [c]
  | letter {e : Char} (h : (e, c) ∈ escapeLetters) : Spells c ['\\', e]
  | hex {cs : List Char} (hc : c.toNat ≤ 0x7f) (h : IsNumeral IsHexDigit 16 2 c.toNat cs) :
    Spells c ('\\' :: 'x' :: cs)
  | octal {cs : List Char} (hc : c.toNat ≤ 0x7f) (h : IsNumeral IsOctalDigit 8 3 c.toNat cs) :
    Spells c ('\\' :: cs)
  | short {cs : List Char} (h : IsNumeral IsHexDigit 16 4 c.toNat cs) :
    Spells c ('\\' :: 'u' :: cs)
  | long {cs : List Char} (h : IsNumeral IsHexDigit 16 8 c.toNat cs) :
    Spells c ('\\' :: 'U' :: cs)

theorem scalar?_toNat (c : Char) : scalar? c.toNat = some c := by
  have hv : c.toNat.isValidChar := c.valid
  rw [scalar?, dif_pos hv]
  rfl

theorem ascii?_toNat {c : Char} (h : c.toNat ≤ 0x7f) : ascii? c.toNat = some c := by
  rw [ascii?, if_pos h, scalar?_toNat]

theorem escape?_letter {e c : Char} (h : (e, c) ∈ escapeLetters) (rest : List Char) :
    escape? e rest = some (c, rest) := by
  have hall : ∀ p ∈ escapeLetters, p.1 ≠ 'x' ∧ p.1 ≠ 'u' ∧ p.1 ≠ 'U' ∧
      octalDigit? p.1 = none ∧ letterEscape? p.1 = some p.2 := by decide
  obtain ⟨hx, hu, hU, ho, hl⟩ := hall _ h
  simp only [escape?, if_neg hx, if_neg hu, if_neg hU, ho, hl, Option.map_some]

/-- Three octal digits are read behind a backslash: the first decides that they are. -/
theorem escape?_octal {d c : Char} {cs : List Char} (hc : c.toNat ≤ 0x7f)
    (h : IsNumeral IsOctalDigit 8 3 c.toNat (d :: cs)) (rest : List Char) :
    escape? d (cs ++ rest) = some (c, rest) := by
  obtain ⟨vs, hvs, hlen, hval⟩ := h
  cases hvs with
  | @cons v _ vs _ hd hvs =>
    have hne : ∀ v < 8, v.digitChar ≠ 'x' ∧ v.digitChar ≠ 'u' ∧ v.digitChar ≠ 'U' := by decide
    obtain ⟨hx, hu, hU⟩ := hne v hd.1
    rw [← hd.2] at hx hu hU
    have hds := digits?_append (fun _ _ hd => octalDigit?_eq_some hd) hvs 8 v rest
    have hv : numeralValue 8 vs v = c.toNat := by simpa [numeralValue] using hval
    have hlen' : vs.length = 2 := by simpa using hlen
    rw [hlen', hv] at hds
    simp only [escape?, if_neg hx, if_neg hu, if_neg hU, octalDigit?_eq_some hd, hds]
    simp [coded?, ascii?_toNat hc]

/-- A spelling of a character is read back, whatever follows it. -/
theorem unit?_append {c : Char} {unit : List Char} (h : Spells c unit) (rest : List Char) :
    unit? (unit ++ rest) = some (c, rest) := by
  cases h with
  | self hb hn => simp [unit?, hb, hn]
  | letter h => simpa [unit?] using escape?_letter h rest
  | hex hc h =>
    simp [unit?, escape?, hexDigits?_eq h, coded?, ascii?_toNat hc]
  | octal hc h =>
    obtain ⟨d, ds, rfl⟩ := h.exists_cons
    simpa [unit?] using escape?_octal hc h rest
  | short h => simp [unit?, escape?, hexDigits?_eq h, coded?, scalar?_toNat]
  | long h => simp [unit?, escape?, hexDigits?_eq h, coded?, scalar?_toNat]

/-! ## Values -/

/-- The body consists of spellings of the characters of the value, one after the other. -/
inductive SpellsAll : List Char → List Char → Prop where
  | nil : SpellsAll [] []
  | cons {c : Char} {unit value body : List Char} (hu : Spells c unit) (h : SpellsAll value body) :
    SpellsAll (c :: value) (unit ++ body)

theorem unquote_of_unit? {c : Char} {cs rest : List Char} (h : unit? cs = some (c, rest)) :
    unquote cs = (unquote rest).map (c :: ·) := by
  have hne : cs.isEmpty = false := by
    cases cs with
    | nil => simp [unit?] at h
    | cons => rfl
  rw [unquote, hne]
  simp only [Bool.false_eq_true, if_false]
  split
  · next hn => simp [h] at hn
  · next hs =>
    simp only [h, Option.some.injEq, Prod.mk.injEq] at hs
    rw [hs.1, hs.2]

/-- A body is decoded to what it spells. -/
theorem unquote_of_spellsAll {value body : List Char} (h : SpellsAll value body) :
    unquote body = some value := by
  induction h with
  | nil => simp [unquote]
  | cons hu _ ih => rw [unquote_of_unit? (unit?_append hu _), ih]; rfl

/-- The body spells the value and can stand between quotes: no quote in it stands for itself. -/
inductive Encodes : List Char → List Char → Prop where
  | nil : Encodes [] []
  | cons {c : Char} {unit value body : List Char} (hu : Spells c unit) (hq : unit ≠ ['"'])
    (h : Encodes value body) : Encodes (c :: value) (unit ++ body)

theorem Encodes.spellsAll {value body : List Char} (h : Encodes value body) :
    SpellsAll value body := by
  induction h with
  | nil => exact .nil
  | cons hu _ _ ih => exact .cons hu ih

theorem IsBody.append_of_plain {cs body : List Char} (hcs : ∀ c ∈ cs, c ≠ '"' ∧ c ≠ '\\')
    (h : IsBody body) : IsBody (cs ++ body) := by
  induction cs with
  | nil => exact h
  | cons c cs ih =>
    obtain ⟨hq, hb⟩ := hcs c List.mem_cons_self
    exact .plain hq hb (ih fun d hd => hcs d (List.mem_cons_of_mem c hd))

/-- Digits are no quotes and no backslashes. -/
theorem IsHexDigit.ne_quote {v : Nat} {c : Char} (h : IsHexDigit v c) : c ≠ '"' ∧ c ≠ '\\' := by
  have hall : ∀ v < 16, (v.digitChar ≠ '"' ∧ v.digitChar ≠ '\\') ∧
      v.digitChar.toUpper ≠ '"' ∧ v.digitChar.toUpper ≠ '\\' := by decide
  obtain ⟨hv, rfl | rfl⟩ := h
  · exact (hall v hv).1
  · exact (hall v hv).2

theorem IsOctalDigit.isHexDigit {v : Nat} {c : Char} (h : IsOctalDigit v c) : IsHexDigit v c :=
  ⟨Nat.lt_trans h.1 (by decide), .inl h.2⟩

/-- Hexadecimal digits keep a body a body. -/
theorem IsBody.append_hex {len n : Nat} {cs body : List Char}
    (hcs : IsNumeral IsHexDigit 16 len n cs) (h : IsBody body) : IsBody (cs ++ body) :=
  h.append_of_plain fun c hc =>
    let ⟨_, hd⟩ := hcs.exists_digit c hc
    hd.ne_quote

/-- A spelling other than a bare quote keeps a body a body. -/
theorem Spells.isBody_append {c : Char} {unit body : List Char} (h : Spells c unit)
    (hq : unit ≠ ['"']) (hbody : IsBody body) : IsBody (unit ++ body) := by
  cases h with
  | self hb _ => exact .plain (by simpa using hq) hb hbody
  | letter => exact .escaped hbody
  | hex _ h => exact .escaped (hbody.append_hex h)
  | octal _ h =>
    obtain ⟨d, ds, rfl⟩ := h.exists_cons
    refine .escaped (hbody.append_of_plain fun e he => ?_)
    obtain ⟨v, hd⟩ := h.exists_digit e (List.mem_cons_of_mem d he)
    exact hd.isHexDigit.ne_quote
  | short h => exact .escaped (hbody.append_hex h)
  | long h => exact .escaped (hbody.append_hex h)

theorem Encodes.isBody {value body : List Char} (h : Encodes value body) : IsBody body := by
  induction h with
  | nil => exact .nil
  | cons hu hq _ ih => exact hu.isBody_append hq ih

/-! ## Tags -/

/-- The text writes the names with their values: each in any spelling and after any number of
spaces, with any number of spaces at the end. -/
inductive Written : List (String × String) → List Char → Prop where
  | nil (n : Nat) : Written [] (List.replicate n ' ')
  | cons {name value : String} {body : List Char} {ps : List (String × String)} {text : List Char}
    (n : Nat) (hname : IsName name.toList) (hvalue : Encodes value.toList body)
    (h : Written ps text) :
    Written ((name, value) :: ps)
      (List.replicate n ' ' ++ Pair.text ⟨name.toList, body⟩ ++ text)

theorem pair?_spaces (n : Nat) : pair? (List.replicate n ' ') = none := by
  have h : (List.replicate n ' ').dropWhile (· == ' ') = [] := by simp
  simp [pair?, h]

/-- The pairs of a written tag are its names, each with a body that is decoded to its value. -/
theorem firstValue?_of_written {ps : List (String × String)} {text : List Char}
    (h : Written ps text) (key : String) :
    firstValue? key.toList (pairs text) = (ps.lookup key).map String.toList := by
  induction h with
  | nil n => rw [pairs_of_none (pair?_spaces n)]; rfl
  | @cons name value body ps text n hname hvalue _ ih =>
    rw [List.append_assoc, pairs_of_pair? (by
      simpa [List.append_assoc] using pair?_append ⟨hname, hvalue.isBody⟩ n text)]
    by_cases hk : key = name
    · subst hk
      simp [firstValue?, unquote_of_spellsAll hvalue.spellsAll]
    · have hne : name.toList ≠ key.toList := fun he => hk (String.toList_injective he).symm
      have hb : (key == name) = false := by simpa using hk
      rw [List.lookup_cons, hb]
      simpa [firstValue?, hne] using ih

/-- However a list of names and values is written as a tag, a lookup gives the first value with
the wanted name. -/
theorem lookup_of_written {ps : List (String × String)} {tag : String}
    (h : Written ps tag.toList) (key : String) : lookup tag key = ps.lookup key := by
  rw [lookup, value?_eq_firstValue?, firstValue?_of_written h]
  simp [Function.comp_def]

/-- Three pairs, of which two have one name: an escaped quote, a code of four digits, a code of
three octal digits, and no space before the last pair. -/
theorem lookup_of_written_mixed :
    Written [("k", "\"é"), ("sql", "A"), ("k", "z")]
      "k:\"\\\"\\u00E9\"  sql:\"\\101\"k:\"z\" ".toList ∧
    lookup "k:\"\\\"\\u00E9\"  sql:\"\\101\"k:\"z\" " "k" = some "\"é" := by
  have hname : ∀ name ∈ ["k", "sql"], IsName name.toList := by decide
  have hfirst : Encodes "\"é".toList ['\\', '"', '\\', 'u', '0', '0', 'E', '9'] := by
    have hcode : Spells 'é' ['\\', 'u', '0', '0', 'E', '9'] :=
      .short ⟨[0, 0, 14, 9], by simp [IsHexDigit]; decide, rfl, by decide⟩
    have hquote : Spells '"' ['\\', '"'] := .letter (by decide)
    exact .cons hquote (by decide) (.cons hcode (by decide) .nil)
  have hsecond : Encodes "A".toList ['\\', '1', '0', '1'] := by
    have hcode : Spells 'A' ['\\', '1', '0', '1'] :=
      .octal (by decide) ⟨[1, 0, 1], by simp [IsOctalDigit], rfl, by decide⟩
    exact .cons hcode (by decide) .nil
  have hthird : Encodes "z".toList ['z'] :=
    .cons (.self (by decide) (by decide)) (by decide) .nil
  have h : Written [("k", "\"é"), ("sql", "A"), ("k", "z")]
      "k:\"\\\"\\u00E9\"  sql:\"\\101\"k:\"z\" ".toList :=
    .cons 0 (hname "k" (by decide)) hfirst (.cons 2 (hname "sql" (by decide)) hsecond
      (.cons 0 (hname "k" (by decide)) hthird (.nil 1)))
  exact ⟨h, lookup_of_written h "k"⟩

end TaggedRows.Tag
