import TaggedRows.Proofs.Source.Spelling
import TaggedRows.Proofs.Tag.Spelling

/-!
# Written string literals

A string literal that is written for a value is read as that value, whatever the characters of the
value are.

- **Codes** (`Lexer.bracedCode_hexText`): a code point in hexadecimal digits is read as itself.
- **Characters** (`Lexer.stringBody_quoteChar`): one step of the scanner for each, also where NUL
  is written by its code because of the character behind it.
- **Literals** (`Lexer.literal?_quote`, `Lexer.isSpelled_str`).
-/

namespace TaggedRows.Lexer

/-! ## Codes -/

theorem hexDigit?_digitChar {d : Nat} (h : d < 16) : Tag.hexDigit? d.digitChar = some d := by
  have hall : ∀ d < 16, Tag.hexDigit? d.digitChar = some d := by decide
  exact hall d h

theorem bracedCode_digit {len d : Nat} (hlen : len ≠ 6) (hd : d < 16) (value : Nat)
    (cs : List Char) :
    bracedCode len value (d.digitChar :: cs) = bracedCode (len + 1) (value * 16 + d) cs := by
  rw [bracedCode, hexDigit?_digitChar hd]
  simp only [hlen, if_false]

theorem bracedCode_digits (n len value : Nat) (cs : List Char)
    (h : len + (hexText n).length ≤ 6) : bracedCode len value (hexText n ++ cs) =
      bracedCode (len + (hexText n).length) (value * Nat.pow 16 (hexText n).length + n) cs := by
  induction n using Nat.strongRecOn generalizing cs with
  | _ n ih =>
    have heq : hexText n = _ := Nat.toDigits_eq_if (n := n) (b := 16) (by decide)
    by_cases hn : n < 16
    · rw [if_pos hn] at heq
      rw [heq] at h ⊢
      rw [List.length_singleton] at h ⊢
      rw [List.singleton_append, bracedCode_digit (by omega) hn]
    · rw [if_neg hn] at heq
      change hexText n = hexText (n / 16) ++ _ at heq
      rw [heq] at h ⊢
      rw [List.length_append, List.length_singleton] at h ⊢
      have hdigit : n % 16 < 16 := Nat.mod_lt n (by decide)
      have hvalue : (value * Nat.pow 16 (hexText (n / 16)).length + n / 16) * 16 + n % 16 =
          value * Nat.pow 16 ((hexText (n / 16)).length + 1) + n := by
        have hpow : value * Nat.pow 16 ((hexText (n / 16)).length + 1) =
            value * Nat.pow 16 (hexText (n / 16)).length * 16 := (Nat.mul_assoc _ _ _).symm
        omega
      rw [List.append_assoc, ih (n / 16) (by omega) _ (by omega), List.singleton_append,
        bracedCode_digit (by omega) hdigit, hvalue, Nat.add_assoc]

/-- The code point of a character between braces. -/
theorem bracedCode_hexText (c : Char) (cs : List Char) :
    bracedCode 0 0 (hexText c.toNat ++ '}' :: cs) = some (c, cs) := by
  have hlen : (hexText c.toNat).length ≤ 6 := by
    have hbound : c.toNat < 16 ^ 6 := by
      have hvalid : c.toNat < 0xd800 ∨ 0xdfff < c.toNat ∧ c.toNat < 0x110000 := c.valid
      omega
    exact (Nat.length_toDigits_le_iff (by decide) (by decide)).mpr hbound
  have hne : (hexText c.toNat).length ≠ 0 := fun h =>
    Nat.toDigits_ne_nil (List.length_eq_zero_iff.mp h)
  rw [bracedCode_digits _ _ _ _ (by omega), Nat.zero_mul, Nat.zero_add, Nat.zero_add, bracedCode,
    show Tag.hexDigit? '}' = none from rfl]
  simp only [hne, if_false, if_true, Tag.scalar?_toNat, Option.map_some]
  rfl

/-! ## Characters -/

/-- A written character is read by one step. -/
theorem stringBody_quoteChar (c : Char) (next : Option Char) (fuel : Nat) (cs : List Char) :
    stringBody (fuel + 1) (quoteChar c next ++ cs) =
      (stringBody fuel cs).map fun (body, rest) => (c :: body, rest) := by
  have hescape : ∀ {x : List Char}, escape? (x ++ cs) = some (c, cs) →
      stringBody (fuel + 1) ('\\' :: x ++ cs) =
        (stringBody fuel cs).map fun (body, rest) => (c :: body, rest) := fun h =>
    stringBody_escape h fuel
  unfold quoteChar
  split
  · next hc =>
    subst hc
    -- Both spellings of NUL are read alike: no octal code is ever read.
    split
    · exact hescape (x := ['x', '0', '0']) rfl
    · exact hescape (x := ['0']) rfl
  split
  · next hc =>
    subst hc
    exact hescape (x := ['t']) rfl
  split
  · next hc =>
    subst hc
    exact hescape (x := ['n']) rfl
  split
  · next hc =>
    subst hc
    exact hescape (x := ['r']) rfl
  split
  · next hc =>
    subst hc
    exact hescape (x := ['"']) rfl
  split
  · next hc =>
    subst hc
    exact hescape (x := ['\\']) rfl
  split
  · refine hescape (x := 'u' :: '{' :: (hexText c.toNat ++ ['}'])) ?_
    simp only [List.cons_append, List.append_assoc, List.nil_append, escape?]
    exact bracedCode_hexText c cs
  · next hreturn hquote hslash _ =>
    rw [List.singleton_append, stringBody.eq_def]
    simp only [hreturn, hquote, hslash, if_false]

theorem stringBody_quoteBody (value : List Char) (fuel : Nat) (cs : List Char)
    (h : value.length < fuel) :
    stringBody fuel (quoteBody value ++ '"' :: cs) = some (value, cs) := by
  induction value generalizing fuel with
  | nil =>
    obtain ⟨fuel, rfl⟩ := Nat.exists_eq_add_of_le' h
    rfl
  | cons c value ih =>
    obtain ⟨fuel, rfl⟩ := Nat.exists_eq_add_of_le' (show 1 ≤ fuel by omega)
    rw [List.length_cons] at h
    rw [quoteBody, List.append_assoc, stringBody_quoteChar, ih fuel (by omega)]
    rfl

/-! ## Literals -/

theorem length_le_quoteBody (value : List Char) : value.length ≤ (quoteBody value).length := by
  have hchar : ∀ c next, 1 ≤ (quoteChar c next).length := by
    intro c next
    unfold quoteChar
    repeat' split
    all_goals simp
  induction value with
  | nil => exact Nat.le_refl 0
  | cons c value ih =>
    rw [quoteBody, List.length_append, List.length_cons]
    have := hchar c value.head?
    omega

theorem literal?_quote {after : List Char} (value : String) (ha : Ends after) :
    literal? ((quoteString value).toList ++ after) =
      some (.string value, after) := by
  have hchars : (quoteString value).toList ++ after =
      '"' :: (quoteBody value.toList ++ '"' :: after) := by
    simp [quoteString]
  have hlen := length_le_quoteBody value.toList
  have hbody := stringBody_quoteBody value.toList
    (quoteBody value.toList ++ '"' :: after).length.succ.succ after (by
      rw [List.length_append]
      omega)
  have hsuffix : dropSuffix after = after := by
    rw [dropSuffix, wordRest?_eq_none ha.not_isIdentStart]
    rfl
  rw [hchars, literal?]
  simp only [List.length_cons, Nat.succ_eq_add_one] at hbody ⊢
  rw [hbody, Option.map_some, hsuffix, String.ofList_toList]

theorem reads_literal {l : Literal} {c : Char} {cs after : List Char}
    (htext : l.text.toList = c :: cs) (hslash : c ≠ '/') (hspace : isSpace c = false)
    (hdelimiter : delimiter? c = none)
    (hliteral : literal? (l.text.toList ++ after) = some (l.kind, after)) :
    Reads (.literal l) after := by
  have hchars : (Token.literal l).chars = l.text.toList := rfl
  have htake : String.ofList ((l.text.toList ++ after).take
      ((l.text.toList ++ after).length - after.length)) = l.text := by
    rw [List.length_append, Nat.add_sub_cancel, List.take_left, String.ofList_toList]
  refine ⟨?_, ?_⟩
  · rw [hchars, htext]
    exact blank_of_not_space hslash hspace _
  · rw [hchars]
    have hhead : (l.text.toList ++ after).head?.bind delimiter? = none := by
      rw [htext]
      exact hdelimiter
    unfold token?
    simp only [hhead, hliteral, htake]

theorem isSpelled_str (value : String) : IsSpelled (Token.str value) := fun _ ha =>
  reads_literal (by rw [quoteString, String.toList_ofList]) (by decide) (by decide) (by decide)
    (literal?_quote value ha)

end TaggedRows.Lexer
