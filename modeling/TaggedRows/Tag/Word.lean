import TaggedRows.Tag.Escape

/-!
# Codes in words of 32 bits

The code of an escape has at most eight digits, so it can be worked out in a word of 32 bits. Here
every product and every sum on the way is checked, and one that does not fit a word is an `Overflow`
of the whole reading. `unquoteInWords` decodes a body like `unquote`, with its codes in words.
-/

namespace TaggedRows.Tag

/-- A product or a sum does not fit a word. -/
inductive Overflow where
  | overflow
  deriving DecidableEq, Repr

/-- The product of two words. -/
def mulWords (a b : UInt32) : Except Overflow UInt32 :=
  if a.toNat * b.toNat < UInt32.size then .ok (a * b) else .error .overflow

/-- The sum of two words. -/
def addWords (a b : UInt32) : Except Overflow UInt32 :=
  if a.toNat + b.toNat < UInt32.size then .ok (a + b) else .error .overflow

/-- Exactly `n` digits of the given base, on top of the value `acc` of the digits before them. The
place for a digit is made before the digit is looked at. -/
def wordDigits (digit? : Char → Option Nat) (base : UInt32) : Nat → UInt32 → List Char →
    Except Overflow (Option (UInt32 × List Char))
  | 0, acc, cs => .ok (some (acc, cs))
  | n + 1, acc, cs => do
    let shifted ← mulWords acc base
    match cs with
    | [] => return none
    | c :: cs =>
      match digit? c with
      | none => return none
      | some d => wordDigits digit? base n (← addWords shifted (.ofNat d)) cs

/-- A code of digits, read as a character. -/
def codedWord? (char? : Nat → Option Char) (r : Except Overflow (Option (UInt32 × List Char))) :
    Except Overflow (Option (Char × List Char)) :=
  r.map fun found => coded? char? (found.map fun (word, rest) => (word.toNat, rest))

/-- The escape that begins after its backslash with `c`, and what follows it. -/
def escapeInWords (c : Char) (cs : List Char) : Except Overflow (Option (Char × List Char)) :=
  if c = 'x' then codedWord? ascii? (wordDigits hexDigit? 16 2 0 cs)
  else if c = 'u' then codedWord? scalar? (wordDigits hexDigit? 16 4 0 cs)
  else if c = 'U' then codedWord? scalar? (wordDigits hexDigit? 16 8 0 cs)
  else match octalDigit? c with
    | some d => codedWord? ascii? (wordDigits octalDigit? 8 2 (.ofNat d) cs)
    | none => .ok ((letterEscape? c).map fun d => (d, cs))

/-- The first unit of a body, decoded, and what follows it. -/
def unitInWords : List Char → Except Overflow (Option (Char × List Char))
  | [] => .ok none
  | c :: cs =>
    if c = '\\' then
      match cs with
      | [] => .ok none
      | e :: cs => escapeInWords e cs
    else if c = '\n' then .ok none
    else .ok (some (c, cs))

/-! ## Bounds -/

theorem mulWords_eq {a b : UInt32} (h : a.toNat * b.toNat < UInt32.size) :
    ∃ w, mulWords a b = .ok w ∧ w.toNat = a.toNat * b.toNat :=
  ⟨a * b, if_pos h, by rw [UInt32.toNat_mul, Nat.mod_eq_of_lt h]⟩

theorem addWords_eq {a b : UInt32} (h : a.toNat + b.toNat < UInt32.size) :
    ∃ w, addWords a b = .ok w ∧ w.toNat = a.toNat + b.toNat :=
  ⟨a + b, if_pos h, by rw [UInt32.toNat_add, Nat.mod_eq_of_lt h]⟩

/-- With `n` more digits, a value below the bound still fits a word. -/
def hasRoom (base : Nat) : Nat → Nat → Bool
  | 0, _ => true
  | n + 1, bound => bound * base ≤ UInt32.size && hasRoom base n (bound * base)

/-- Nothing overflows where all digits have room in a word. -/
theorem wordDigits_eq {digit? : Char → Option Nat} {base : UInt32} (hbase : 0 < base.toNat)
    (hdigit : ∀ c d, digit? c = some d → d < base.toNat) {n bound : Nat} {acc : UInt32}
    (hacc : acc.toNat < bound) (hroom : hasRoom base.toNat n bound = true) (cs : List Char) :
    (wordDigits digit? base n acc cs).map (Option.map fun (word, rest) => (word.toNat, rest)) =
      .ok (digits? digit? base.toNat n acc.toNat cs) := by
  induction n generalizing bound acc cs with
  | zero => rfl
  | succ n ih =>
    simp only [hasRoom, Bool.and_eq_true, decide_eq_true_eq] at hroom
    obtain ⟨hfits, hroom⟩ := hroom
    have hshift : acc.toNat * base.toNat + base.toNat ≤ bound * base.toNat := by
      calc acc.toNat * base.toNat + base.toNat
          = (acc.toNat + 1) * base.toNat := by rw [Nat.add_mul, Nat.one_mul]
        _ ≤ bound * base.toNat := Nat.mul_le_mul_right _ hacc
    obtain ⟨shifted, hmul, hshifted⟩ := mulWords_eq (a := acc) (b := base) (by omega)
    simp only [wordDigits, hmul, bind, Except.bind]
    cases cs with
    | nil => rfl
    | cons c cs =>
      cases hd : digit? c with
      | none => simp only [digits?, hd]; rfl
      | some d =>
        have hlt := hdigit c d hd
        have hword : (UInt32.ofNat d).toNat = d := UInt32.toNat_ofNat_of_lt' (by omega)
        obtain ⟨sum, hadd, hsum⟩ := addWords_eq (a := shifted) (b := .ofNat d) (by omega)
        rw [hshifted, hword] at hsum
        simp only [digits?, hd, hadd]
        rw [ih (by omega) hroom, hsum]

theorem codedWord?_eq {char? : Nat → Option Char}
    {r : Except Overflow (Option (UInt32 × List Char))} {found : Option (Nat × List Char)}
    (h : r.map (Option.map fun (word, rest) => (word.toNat, rest)) = .ok found) :
    codedWord? char? r = .ok (coded? char? found) := by
  cases r with
  | error e => cases h
  | ok r =>
    cases h
    rfl

/-- No escape is too long for a word. -/
theorem escapeInWords_eq (c : Char) (cs : List Char) : escapeInWords c cs = .ok (escape? c cs) := by
  have hhex : ∀ n, hasRoom 16 n 1 = true →
      (wordDigits hexDigit? 16 n 0 cs).map (Option.map fun (word, rest) => (word.toNat, rest)) =
        .ok (digits? hexDigit? 16 n 0 cs) :=
    fun n hn => wordDigits_eq (by decide) (fun _ _ => hexDigit?_lt)
      (show (0 : UInt32).toNat < 1 by decide) (by exact hn) cs
  unfold escapeInWords escape?
  split
  · exact codedWord?_eq (hhex 2 (by decide))
  split
  · exact codedWord?_eq (hhex 4 (by decide))
  split
  · exact codedWord?_eq (hhex 8 (by decide))
  cases hd : octalDigit? c with
  | none => rfl
  | some d =>
    have hlt := octalDigit?_lt hd
    have hword : (UInt32.ofNat d).toNat = d :=
      UInt32.toNat_ofNat_of_lt' (Nat.lt_trans hlt (by decide))
    have hoctal : (wordDigits octalDigit? 8 2 (.ofNat d) cs).map
        (Option.map fun (word, rest) => (word.toNat, rest)) =
          .ok (digits? octalDigit? 8 2 (UInt32.ofNat d).toNat cs) :=
      wordDigits_eq (by decide) (fun _ _ => octalDigit?_lt) (by rw [hword]; exact hlt)
        (by decide) cs
    rw [hword] at hoctal
    exact codedWord?_eq hoctal

theorem unitInWords_eq (cs : List Char) : unitInWords cs = .ok (unit? cs) := by
  cases cs with
  | nil => rfl
  | cons c cs =>
    by_cases hb : c = '\\'
    · subst hb
      cases cs with
      | nil => rfl
      | cons e cs => exact escapeInWords_eq e cs
    · by_cases hn : c = '\n' <;> simp [unitInWords, unit?, hb, hn]

/-! ## Bodies -/

/-- The text that a body stands for. -/
def unquoteInWords (body : List Char) : Except Overflow (Option (List Char)) :=
  if body.isEmpty then .ok (some [])
  else match _h : unitInWords body with
    | .error e => .error e
    | .ok none => .ok none
    | .ok (some (c, rest)) => (unquoteInWords rest).map (Option.map (c :: ·))
termination_by body.length
decreasing_by
  exact length_of_unit? (Except.ok.inj ((unitInWords_eq body).symm.trans ‹_›))

end TaggedRows.Tag
