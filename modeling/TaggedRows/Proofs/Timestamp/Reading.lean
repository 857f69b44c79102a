import TaggedRows.Proofs.Attempts
import TaggedRows.Proofs.Text.Digits
import TaggedRows.Proofs.Timestamp.Calendar

/-!
# Reading what is written

A timestamp is read back from the text in a column (`Timestamp.ofColumn_columnText`). Every part of
the text is read back by its own reader, whatever stands behind it that does not begin with a digit.
-/

namespace TaggedRows.Timestamp

/-- The day is within the range of years, and only a leap second has more than a whole second. -/
structure IsProper (t : Timestamp) : Prop where
  minYear_le : CalendarDay.minYear ≤ (CalendarDay.ofNumber t.day).year
  le_maxYear : (CalendarDay.ofNumber t.day).year ≤ CalendarDay.maxYear
  second_lt : t.second < 86400
  nano_lt : t.nano < if t.second % 60 = 59 then 2 * giga else giga

/-! ## Digits -/

/-- The text does not begin with a digit. -/
def EndsDigits (rest : List Char) : Prop := ∀ c, rest.head? = some c → isDigit c = false

theorem EndsDigits.cons {c : Char} (h : isDigit c = false) (rest : List Char) :
    EndsDigits (c :: rest) := by
  rintro d hd
  cases hd
  exact h

variable {c : Char} {width n : Nat} {rest : List Char}

theorem isDigit_of_mem_digits (h : c ∈ digits width n) : isDigit c = true := by
  rcases List.mem_append.mp h with h | h
  · rw [List.eq_of_mem_replicate h]
    rfl
  · exact Nat.isDigit_of_mem_toDigits (by decide) (by decide) h

theorem digits_ne_nil : digits width n ≠ [] := by simp [digits]

theorem length_digits (hw : 0 < width) (h : n < Nat.pow 10 width) :
    (digits width n).length = width := by
  have hle := (Nat.length_toDigits_le_iff (by decide) hw).mpr h
  simp [digits]
  omega

theorem digitsValue_digits : digitsValue (digits width n) = n := by
  have h : digitsValue (digits width n) = Nat.ofDigitChars 10 (digits width n) 0 := rfl
  rw [h, digits, Nat.ofDigitChars_append, Nat.ofDigitChars_replicate_zero, Nat.mul_zero,
    Nat.ofDigitChars_ten_toDigits]

/-! ## Readers -/

theorem EndsDigits.take (hr : EndsDigits rest) (n : Nat) : EndsDigits (rest.take n) := by
  intro c hc
  cases n with
  | zero => cases hc
  | succ n =>
    cases rest with
    | nil => cases hc
    | cons d rest => exact hr c hc

theorem takeWhile_digits {ds : List Char} (hd : ∀ c ∈ ds, isDigit c = true)
    (hr : EndsDigits rest) : (ds ++ rest).takeWhile isDigit = ds := by
  rw [List.takeWhile_append_of_pos hd]
  cases rest with
  | nil => simp
  | cons d rest => simp [hr d rfl]

/-- All digits are read, if they are not too many. -/
theorem readDigits_append {most : Option Nat} {ds : List Char}
    (hd : ∀ c ∈ ds, isDigit c = true) (hne : ds ≠ []) (hm : ∀ n ∈ most, ds.length ≤ n)
    (hr : EndsDigits rest) : readDigits most (ds ++ rest) = .ok (ds, rest) := by
  cases most with
  | none => simp [readDigits, takeWhile_digits hd hr, hne]
  | some n =>
    have hw : (ds ++ rest).take n = ds ++ rest.take (n - ds.length) := by
      rw [List.take_append, List.take_of_length_le (hm n rfl)]
    simp [readDigits, hw, takeWhile_digits hd (hr.take _), hne]

theorem readNumber_append {most : Option Nat} (hm : ∀ k ∈ most, (digits width n).length ≤ k)
    (hn : n ≤ maxNumber) (hr : EndsDigits rest) :
    readNumber most (digits width n ++ rest) = .ok (n, rest) := by
  refine bind_eq_ok.mpr ⟨_, readDigits_append (fun _ => isDigit_of_mem_digits) digits_ne_nil hm hr,
    ?_⟩
  dsimp only
  rw [digitsValue_digits, if_neg (by omega)]

theorem trimStart_digits : Text.trimStart (digits width n ++ rest) = digits width n ++ rest := by
  have hblank : Text.digitChars.all (fun c => !Text.isBlank c) = true := by decide +kernel
  cases hd : digits width n with
  | nil => exact absurd hd digits_ne_nil
  | cons c ds =>
    have hc : isDigit c = true := isDigit_of_mem_digits (by rw [hd]; exact List.mem_cons_self ..)
    have hnot := Text.of_isDigit hblank hc
    rw [Text.trimStart, List.cons_append, List.dropWhile_cons_of_neg]
    simpa using hnot

theorem readWithin_append {low high : Nat} (hl : low ≤ n) (hh : n ≤ high) (hn : n < 100)
    (hr : EndsDigits rest) : readWithin low high (digits 2 n ++ rest) = .ok (n, rest) := by
  have hlength : (digits 2 n).length = 2 := length_digits (by decide) hn
  rw [readWithin, trimStart_digits]
  refine bind_eq_ok.mpr
    ⟨_, readNumber_append (by simp [hlength]) (by simp [maxNumber]; omega) hr, ?_⟩
  dsimp only
  rw [if_pos ⟨hl, hh⟩]

theorem readChar_cons (c : Char) (rest : List Char) : readChar c (c :: rest) = .ok ((), rest) := by
  simp [readChar]

/-- A year with a sign is read up to the end of its digits, and one without has four of them. -/
theorem readYear_append {y : Int} (hmin : CalendarDay.minYear ≤ y) (hmax : y ≤ CalendarDay.maxYear)
    (hr : EndsDigits rest) : readYear (yearText y ++ rest) = .ok (y, rest) := by
  have hminus : Text.isBlank '-' = false := by decide +kernel
  have hplus : Text.isBlank '+' = false := by decide +kernel
  have hn : y.natAbs ≤ maxNumber := by
    simp only [CalendarDay.minYear, CalendarDay.maxYear, maxNumber] at *
    omega
  have hrange : -2147483648 ≤ y ∧ y ≤ 2147483647 := by
    simp only [CalendarDay.minYear, CalendarDay.maxYear] at *
    omega
  have hfree : readNumber none (digits 4 y.natAbs ++ rest) = .ok (y.natAbs, rest) :=
    readNumber_append (by simp) hn hr
  rw [yearText]
  split
  · next hfour =>
    have hlength : (digits 4 y.toNat).length = 4 :=
      length_digits (by decide) (show y.toNat < 10000 by omega)
    have hnum : readNumber (some 4) (digits 4 y.toNat ++ rest) = .ok (y.toNat, rest) :=
      readNumber_append (by simp [hlength]) (by omega) hr
    have hsign : ∀ c cs, isDigit c = false → digits 4 y.toNat ++ rest ≠ c :: cs := by
      intro c cs hc he
      cases hd : digits 4 y.toNat with
      | nil => exact digits_ne_nil hd
      | cons d ds =>
        rw [hd] at he
        cases he
        have hdigit : isDigit c = true :=
          isDigit_of_mem_digits (by rw [hd]; exact List.mem_cons_self ..)
        rw [hc] at hdigit
        cases hdigit
    rw [readYear, trimStart_digits]
    split
    · next he => exact absurd he (hsign _ _ (by decide))
    · next he => exact absurd he (hsign _ _ (by decide))
    · refine bind_eq_ok.mpr ⟨_, hnum, ?_⟩
      dsimp only
      have hy : (y.toNat : Int) = y := by omega
      rw [hy, if_pos hrange]
  · split
    · next hneg =>
      have htrim : Text.trimStart ('-' :: digits 4 y.natAbs ++ rest) =
          '-' :: (digits 4 y.natAbs ++ rest) := by simp [Text.trimStart, hminus]
      rw [readYear, htrim]
      refine bind_eq_ok.mpr ⟨_, hfree, ?_⟩
      dsimp only
      have hy : -(y.natAbs : Int) = y := by omega
      rw [hy, if_pos hrange]
    · next hneg =>
      have htrim : Text.trimStart ('+' :: digits 4 y.natAbs ++ rest) =
          '+' :: (digits 4 y.natAbs ++ rest) := by simp [Text.trimStart, hplus]
      rw [readYear, htrim]
      refine bind_eq_ok.mpr ⟨_, hfree, ?_⟩
      dsimp only
      have hy : (y.natAbs : Int) = y := by omega
      rw [hy, if_pos hrange]

theorem readFraction_append (nano : Nat) (hr : EndsDigits rest) (hp : rest.head? ≠ some '.') :
    readFraction (fractionText nano ++ rest) = .ok (nano % giga, rest) := by
  have hrest : rest.dropWhile isDigit = rest := by
    cases rest with
    | nil => rfl
    | cons c rest => simp [hr c rfl]
  have hdigits : ∀ width n, 0 < width → width ≤ 9 → n < Nat.pow 10 width →
      readFraction ('.' :: digits width n ++ rest) = .ok (n * Nat.pow 10 (9 - width), rest) := by
    intro width n hw h9 hn
    have hlength := length_digits hw hn
    refine bind_eq_ok.mpr ⟨_, readDigits_append (fun _ => isDigit_of_mem_digits) digits_ne_nil
      (by simp [hlength, h9]) hr, ?_⟩
    dsimp only
    rw [hrest, hlength, digitsValue_digits]
  have hlt : nano % giga < 1000000000 := Nat.mod_lt _ (by decide)
  unfold fractionText
  generalize nano % giga = n at hlt
  dsimp only
  split
  · next h0 =>
    subst h0
    cases rest with
    | nil => rfl
    | cons c rest =>
      unfold readFraction
      split
      · next he => cases he; exact absurd rfl hp
      · rfl
  split
  · have hn : n / 1000000 * Nat.pow 10 (9 - 3) = n := by
      have hpow : Nat.pow 10 (9 - 3) = 1000000 := by decide
      rw [hpow]
      omega
    rw [hdigits 3 _ (by decide) (by decide) (show n / 1000000 < 1000 by omega), hn]
  split
  · have hn : n / 1000 * Nat.pow 10 (9 - 6) = n := by
      have hpow : Nat.pow 10 (9 - 6) = 1000 := by decide
      rw [hpow]
      omega
    rw [hdigits 6 _ (by decide) (by decide) (show n / 1000 < 1000000 by omega), hn]
  · rw [hdigits 9 _ (by decide) (by decide) hlt, Nat.sub_self]
    simp

/-! ## Whole texts -/

variable {t : Timestamp}

/-- The parts of a timestamp as they are written. -/
def parts (t : Timestamp) : Reading :=
  ⟨CalendarDay.ofNumber t.day, t.second / 3600, t.second / 60 % 60,
    t.second % 60 + t.nano / giga, t.nano % giga⟩

theorem readParts_append (h : t.IsProper) (between : Char) (hb : isDigit between = false)
    (hr : EndsDigits rest) (hp : rest.head? ≠ some '.') :
    readParts between (t.text between ++ rest) = .ok (t.parts, rest) := by
  obtain ⟨hmin, hmax, hsecond, hnano⟩ := h
  have hvalid := CalendarDay.isValid_ofNumber hmin hmax
  simp only [CalendarDay.isValid, Bool.and_eq_true, decide_eq_true_eq] at hvalid
  obtain ⟨⟨⟨⟨-, hm1⟩, hm12⟩, hd1⟩, hd⟩ := hvalid
  have hd31 : (CalendarDay.ofNumber t.day).day ≤ 31 :=
    Nat.le_trans hd (CalendarDay.daysInMonth_le ..)
  have hs60 : t.second % 60 + t.nano / giga ≤ 60 := by
    unfold giga at *
    split at hnano <;> omega
  have hdash : ∀ cs, EndsDigits ('-' :: cs) := EndsDigits.cons (by decide)
  have hcolon : ∀ cs, EndsDigits (':' :: cs) := EndsDigits.cons (by decide)
  have hfraction : EndsDigits (fractionText t.nano ++ rest) := by
    unfold fractionText
    dsimp only
    split
    · exact hr
    · split
      · exact .cons (by decide) _
      · split <;> exact .cons (by decide) _
  simp only [text, List.append_assoc, List.cons_append]
  refine bind_eq_ok.mpr ⟨_, readYear_append hmin hmax (hdash _), ?_⟩
  refine bind_eq_ok.mpr ⟨_, readChar_cons .., ?_⟩
  refine bind_eq_ok.mpr ⟨_, readWithin_append hm1 hm12 (by omega) (hdash _), ?_⟩
  refine bind_eq_ok.mpr ⟨_, readChar_cons .., ?_⟩
  refine bind_eq_ok.mpr ⟨_, readWithin_append hd1 hd31 (by omega) (.cons hb _), ?_⟩
  refine bind_eq_ok.mpr ⟨_, readChar_cons .., ?_⟩
  refine bind_eq_ok.mpr ⟨_, readWithin_append (by omega) (by omega) (by omega) (hcolon _), ?_⟩
  refine bind_eq_ok.mpr ⟨_, readChar_cons .., ?_⟩
  refine bind_eq_ok.mpr ⟨_, readWithin_append (by omega) (by omega) (by omega) (hcolon _), ?_⟩
  refine bind_eq_ok.mpr ⟨_, readChar_cons .., ?_⟩
  refine bind_eq_ok.mpr ⟨_, readWithin_append (Nat.zero_le _) hs60 (by omega) hfraction, ?_⟩
  exact bind_eq_ok.mpr ⟨_, readFraction_append t.nano hr hp, rfl⟩

/-- A second 60 is the last one of its minute grown longer. -/
theorem second_parts (h : t.IsProper) :
    (if t.parts.second = 60 then (59, t.parts.nano + giga) else (t.parts.second, t.parts.nano)) =
      (t.second % 60, t.nano) := by
  have hnano := h.nano_lt
  unfold parts giga at *
  dsimp only
  split at hnano
  · next h59 =>
    by_cases hleap : t.nano < 1000000000
    · rw [Nat.div_eq_of_lt hleap, Nat.mod_eq_of_lt hleap, if_neg (by omega), Nat.add_zero]
    · have h1 : t.nano / 1000000000 = 1 := by omega
      have hgiga : t.nano % 1000000000 + 1000000000 = t.nano := by omega
      rw [h1, h59, if_pos rfl, hgiga]
  · rw [Nat.div_eq_of_lt hnano, Nat.mod_eq_of_lt hnano, if_neg (by omega), Nat.add_zero]

theorem ofReading_parts (h : t.IsProper) : ofReading t.parts 0 = .ok t := by
  have hsecond := h.second_lt
  have hvalid : t.parts.day.isValid = true :=
    CalendarDay.isValid_ofNumber h.minYear_le h.le_maxYear
  have hnumber : t.parts.day.number = t.day := CalendarDay.number_ofNumber t.day
  have hsum : t.parts.hour * 3600 + t.parts.minute * 60 + t.second % 60 = t.second := by
    unfold parts
    dsimp only
    omega
  have hday : (t.second : Int).fdiv 86400 = 0 := by
    rw [Int.fdiv_eq_ediv_of_nonneg _ (by decide)]
    omega
  have hrest : ((t.second : Int).fmod 86400).toNat = t.second := by
    rw [Int.fmod_eq_emod_of_nonneg _ (by decide)]
    omega
  rw [ofReading, second_parts h]
  simp only [hvalid, Bool.not_true, Bool.false_eq_true, if_false]
  simp only [hsum, Int.sub_zero, hday, hrest, hnumber, Int.add_zero]
  exact if_pos ⟨h.minYear_le, h.le_maxYear⟩

/-! ## Columns -/

theorem readZoned_text (h : t.IsProper) :
    readZoned ' ' (t.text ' ' ++ "+00:00".toList) = .ok t := by
  have hparts : readParts ' ' (t.text ' ' ++ "+00:00".toList) = .ok (t.parts, "+00:00".toList) :=
    readParts_append h ' ' (by decide) (.cons (by decide) _) (by decide)
  refine bind_eq_ok.mpr ⟨_, hparts, ?_⟩
  refine bind_eq_ok.mpr ⟨(0, []), by rfl, ?_⟩
  exact ofReading_parts h

theorem getElem?_toUTF8_ne {cs : List Char} {b : UInt8}
    (h : ∀ c ∈ cs, b ∉ String.utf8EncodeChar c) (i : Nat) :
    (String.ofList cs).toUTF8[i]? ≠ some b := by
  intro hb
  rw [String.toUTF8_eq_toByteArray, String.toByteArray_ofList, List.utf8Encode] at hb
  by_cases hi : i < (cs.flatMap String.utf8EncodeChar).toByteArray.size
  · rw [getElem?_pos _ i hi, List.getElem_toByteArray] at hb
    obtain ⟨c, hc, hbc⟩ := List.mem_flatMap.mp (List.mem_of_getElem (Option.some.inj hb))
    exact h c hc hbc
  · rw [getElem?_neg _ i hi] at hb
    cases hb

/-- The characters of written timestamps. -/
def textChars : List Char := ['-', '+', ':', '.', ' '] ++ Text.digitChars

theorem digits_subset : digits width n ⊆ textChars := fun _ hc =>
  List.mem_append_right _ (Text.mem_digitChars (isDigit_of_mem_digits hc))

theorem yearText_subset (y : Int) : yearText y ⊆ textChars := by
  unfold yearText
  split
  · exact digits_subset
  · refine List.cons_subset.mpr ⟨?_, digits_subset⟩
    split <;> decide

theorem fractionText_subset (nano : Nat) : fractionText nano ⊆ textChars := by
  have hpoint : '.' ∈ textChars := by decide
  unfold fractionText
  dsimp only
  split
  · exact List.nil_subset _
  split
  · exact List.cons_subset.mpr ⟨hpoint, digits_subset⟩
  split <;> exact List.cons_subset.mpr ⟨hpoint, digits_subset⟩

theorem text_subset (t : Timestamp) : t.text ' ' ⊆ textChars := by
  have hdash : '-' ∈ textChars := by decide
  have hcolon : ':' ∈ textChars := by decide
  have hblank : ' ' ∈ textChars := by decide
  simp only [text, List.append_subset, List.cons_subset, and_assoc]
  exact ⟨yearText_subset _, hdash, digits_subset, hdash, digits_subset, hblank, digits_subset,
    hcolon, digits_subset, hcolon, digits_subset, fractionText_subset _⟩

/-- No byte of a written timestamp is that of a `T`. -/
theorem separatorOf_columnText (t : Timestamp) : separatorOf t.columnText = ' ' := by
  have hzone : "+00:00".toList ⊆ textChars := by decide
  have hbytes : textChars.all (fun c => 'T'.toUInt8 ∉ String.utf8EncodeChar c) = true := by
    decide +kernel
  have hall : ∀ c ∈ t.text ' ' ++ "+00:00".toList, 'T'.toUInt8 ∉ String.utf8EncodeChar c :=
    fun c hc => of_decide_eq_true (List.all_eq_true.mp hbytes c
      (List.append_subset.mpr ⟨t.text_subset, hzone⟩ hc))
  rw [separatorOf, columnText, if_neg (getElem?_toUTF8_ne hall 10)]

/-- A timestamp is read back from a column. -/
theorem ofColumn_columnText (h : t.IsProper) : ofColumn t.columnText = .ok t := by
  have hread : readZoned (separatorOf t.columnText) t.columnText.toList = .ok t := by
    rw [separatorOf_columnText, columnText, String.toList_ofList]
    exact readZoned_text h
  simp only [ofColumn, hread]

end TaggedRows.Timestamp
