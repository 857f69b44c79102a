/-!
# Escapes of a tag value

The body of a quoted value is a sequence of *units*: a character other than a backslash and a
newline stands for itself, and a backslash starts one of these escapes.

* one letter: `\a \b \f \n \r \t \v \\ \"`,
* `\x` with two hexadecimal digits, or a backslash with three octal digits, for a code up to `7f`,
* `\u` with four or `\U` with eight hexadecimal digits, for a character by its code point.

`unquote` decodes a body, and fails when some unit is malformed.
-/

namespace TaggedRows.Tag

/-- The value of a hexadecimal digit of either case. -/
def hexDigit? (c : Char) : Option Nat :=
  if '0' ≤ c ∧ c ≤ '9' then some (c.toNat - '0'.toNat)
  else if 'a' ≤ c ∧ c ≤ 'f' then some (c.toNat - 'a'.toNat + 10)
  else if 'A' ≤ c ∧ c ≤ 'F' then some (c.toNat - 'A'.toNat + 10)
  else none

/-- The value of an octal digit. -/
def octalDigit? (c : Char) : Option Nat :=
  if '0' ≤ c ∧ c ≤ '7' then some (c.toNat - '0'.toNat) else none

/-- Exactly `n` digits of the given base, on top of the value `acc` of the digits before them. -/
def digits? (digit? : Char → Option Nat) (base : Nat) : Nat → Nat → List Char →
    Option (Nat × List Char)
  | 0, acc, cs => some (acc, cs)
  | _ + 1, _, [] => none
  | n + 1, acc, c :: cs =>
    match digit? c with
    | none => none
    | some d => digits? digit? base n (acc * base + d) cs

/-- The character with code point `n`, if there is one. -/
def scalar? (n : Nat) : Option Char :=
  if h : n.isValidChar then some (Char.ofNatAux n h) else none

/-- The character with code `n`, if that is at most `7f`. -/
def ascii? (n : Nat) : Option Char :=
  if n ≤ 0x7f then scalar? n else none

/-- The escapes that consist of one letter. -/
def letterEscape? : Char → Option Char
  | 'a' => some '\x07'
  | 'b' => some '\x08'
  | 'f' => some '\x0c'
  | 'n' => some '\n'
  | 'r' => some '\r'
  | 't' => some '\t'
  | 'v' => some '\x0b'
  | '\\' => some '\\'
  | '"' => some '"'
  | _ => none

/-- A code of digits, read as a character. -/
def coded? (char? : Nat → Option Char) (r : Option (Nat × List Char)) :
    Option (Char × List Char) :=
  r.bind fun (n, rest) => (char? n).map fun c => (c, rest)

/-- The escape that begins after its backslash with `c`, and what follows it. -/
def escape? (c : Char) (cs : List Char) : Option (Char × List Char) :=
  if c = 'x' then coded? ascii? (digits? hexDigit? 16 2 0 cs)
  else if c = 'u' then coded? scalar? (digits? hexDigit? 16 4 0 cs)
  else if c = 'U' then coded? scalar? (digits? hexDigit? 16 8 0 cs)
  else match octalDigit? c with
    | some d => coded? ascii? (digits? octalDigit? 8 2 d cs)
    | none => (letterEscape? c).map fun d => (d, cs)

/-- The first unit of a body, decoded, and what follows it. -/
def unit? : List Char → Option (Char × List Char)
  | [] => none
  | c :: cs =>
    if c = '\\' then
      match cs with
      | [] => none
      | e :: cs => escape? e cs
    else if c = '\n' then none
    else some (c, cs)

/-! ## Bounds of digits -/

theorem toNat_le {a b : Char} (h : a ≤ b) : a.toNat ≤ b.toNat :=
  UInt32.le_iff_toNat_le.mp h

/-- Hexadecimal digits are ASCII characters. -/
theorem toNat_lt_of_hexDigit? {c : Char} {d : Nat} (h : hexDigit? c = some d) : c.toNat < 128 := by
  have h9 : c ≤ '9' → c.toNat ≤ 57 := toNat_le
  have hf : c ≤ 'f' → c.toNat ≤ 102 := toNat_le
  have hF : c ≤ 'F' → c.toNat ≤ 70 := toNat_le
  unfold hexDigit? at h
  grind

theorem hexDigit?_lt {c : Char} {d : Nat} (h : hexDigit? c = some d) : d < 16 := by
  have h9 : c ≤ '9' → c.toNat ≤ 57 := toNat_le
  have hf : c ≤ 'f' → c.toNat ≤ 102 := toNat_le
  have hF : c ≤ 'F' → c.toNat ≤ 70 := toNat_le
  simp only [hexDigit?, Char.reduceToNat] at h
  grind

theorem octalDigit?_lt {c : Char} {d : Nat} (h : octalDigit? c = some d) : d < 8 := by
  have h7 : c ≤ '7' → c.toNat ≤ 55 := toNat_le
  simp only [octalDigit?, Char.reduceToNat] at h
  grind

/-- An octal digit has the same value as a hexadecimal one. -/
theorem hexDigit?_of_octalDigit? {c : Char} {d : Nat} (h : octalDigit? c = some d) :
    hexDigit? c = some d := by
  have h7 : c ≤ '7' → c ≤ '9' := fun h => Char.le_trans h (by decide)
  unfold octalDigit? at h
  unfold hexDigit?
  grind

/-! ## Lengths -/

theorem length_of_digits? {digit? : Char → Option Nat} {base n acc v : Nat} {cs rest : List Char}
    (h : digits? digit? base n acc cs = some (v, rest)) : rest.length ≤ cs.length := by
  induction n generalizing acc cs with
  | zero => simp [digits?] at h; simp [h.2]
  | succ n ih =>
    cases cs with
    | nil => simp [digits?] at h
    | cons c cs =>
      simp only [digits?] at h
      split at h
      · simp at h
      · have := ih h
        simp only [List.length_cons]
        omega

theorem length_of_coded? {char? : Nat → Option Char} {digit? : Char → Option Nat}
    {base n acc : Nat} {cs rest : List Char} {c : Char}
    (h : coded? char? (digits? digit? base n acc cs) = some (c, rest)) :
    rest.length ≤ cs.length := by
  simp only [coded?, Option.bind_eq_some_iff, Option.map_eq_some_iff, Prod.mk.injEq] at h
  obtain ⟨⟨v, r⟩, hd, c', -, -, hr⟩ := h
  exact hr ▸ length_of_digits? hd

theorem length_of_escape? {e c : Char} {cs rest : List Char} (h : escape? e cs = some (c, rest)) :
    rest.length ≤ cs.length := by
  simp only [escape?] at h
  split at h
  · exact length_of_coded? h
  split at h
  · exact length_of_coded? h
  split at h
  · exact length_of_coded? h
  split at h
  · exact length_of_coded? h
  · simp only [Option.map_eq_some_iff, Prod.mk.injEq] at h
    obtain ⟨_, _, _, hr⟩ := h
    simp [hr]

/-- A unit takes at least one character. -/
theorem length_of_unit? {c : Char} {cs rest : List Char} (h : unit? cs = some (c, rest)) :
    rest.length < cs.length := by
  cases cs with
  | nil => simp [unit?] at h
  | cons d cs =>
    simp only [unit?] at h
    split at h
    · split at h
      · simp at h
      · have := length_of_escape? h
        simp only [List.length_cons]
        omega
    split at h
    · simp at h
    · simp only [Option.some.injEq, Prod.mk.injEq] at h
      simp [h.2]

/-- The text that a body stands for. -/
def unquote (body : List Char) : Option (List Char) :=
  if body.isEmpty then some []
  else match _h : unit? body with
    | none => none
    | some (c, rest) => (unquote rest).map (c :: ·)
termination_by body.length
decreasing_by exact length_of_unit? ‹_›

end TaggedRows.Tag
