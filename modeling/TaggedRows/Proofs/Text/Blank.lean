import TaggedRows.Text.Blank
import TaggedRows.Text.Identifier

/-!
# White space

- **Code points** (`mem_blankCodes`): white space is a few of them, and none of them may begin an
  identifier (`isIdentStart_of_isBlank`).
- **Trimming** (`trim_eq_iff`): what is trimmed away is the white space at both ends of a text, and
  nothing else.
-/

namespace TaggedRows.Text

/-- The first interval of a set, and the intervals behind it. -/
theorem inBounds_cons_cons (a b : Nat) (bounds : List Nat) (n : Nat) :
    inBounds (a :: b :: bounds) n =
      if n < a then false else if n < b then true else inBounds bounds n := by
  split
  · next h => exact inBounds_of_lt _ h
  next ha =>
  split
  · next hb => simp [inBounds, Nat.not_lt.mp ha, Nat.not_le.mpr hb]
  · next hb =>
    have hparity : ∀ k : Nat, ((k + 1 + 1) % 2 == 1) = (k % 2 == 1) := fun k => by
      rw [Nat.add_assoc, Nat.add_mod_right]
    simp [inBounds, Nat.not_lt.mp ha, Nat.not_lt.mp hb, hparity]

/-- The code points of white space. -/
def blankCodes : List Nat :=
  [9, 10, 11, 12, 13, 0x20, 0x85, 0xa0, 0x1680, 0x2000, 0x2001, 0x2002, 0x2003, 0x2004, 0x2005,
    0x2006, 0x2007, 0x2008, 0x2009, 0x200a, 0x2028, 0x2029, 0x202f, 0x205f, 0x3000]

theorem mem_blankCodes {n : Nat} (h : inBounds whiteSpaceBounds n = true) : n ∈ blankCodes := by
  simp only [whiteSpaceBounds, inBounds_cons_cons, inBounds_nil, Bool.if_false_left,
    Bool.if_true_left, Bool.and_eq_true, Bool.or_eq_true, decide_eq_true_eq, Bool.not_eq_true',
    decide_eq_false_iff_not, Bool.false_eq_true, or_false] at h
  simp only [blankCodes, List.mem_cons, List.not_mem_nil, or_false]
  omega

theorem isIdentStart_of_isBlank {c : Char} (h : isBlank c = true) : isIdentStart c = false := by
  have hall : ∀ n ∈ blankCodes, isIdentStart (Char.ofNat n) = false := by decide +kernel
  have hc := hall _ (mem_blankCodes h)
  rwa [Char.ofNat_toNat] at hc

/-! ## Trimming -/

/-- The text has no white space at its ends. -/
structure IsTrimmed (cs : List Char) : Prop where
  head : ∀ c ∈ cs.head?, isBlank c = false
  last : ∀ c ∈ cs.getLast?, isBlank c = false

/-- The text is the trimmed one with white space around it. -/
def Pads (cs trimmed : List Char) : Prop :=
  IsTrimmed trimmed ∧ ∃ before after, cs = before ++ (trimmed ++ after) ∧
    (∀ c ∈ before, isBlank c = true) ∧ ∀ c ∈ after, isBlank c = true

theorem trimStart_append {before : List Char} (h : ∀ c ∈ before, isBlank c = true)
    (cs : List Char) : trimStart (before ++ cs) = trimStart cs :=
  List.dropWhile_append_of_pos h

theorem trimEnd_append {after : List Char} (h : ∀ c ∈ after, isBlank c = true)
    (cs : List Char) : trimEnd (cs ++ after) = trimEnd cs := by
  have hafter : ∀ c ∈ after.reverse, isBlank c = true := fun c hc => h c (List.mem_reverse.mp hc)
  rw [trimEnd, List.reverse_append, List.dropWhile_append_of_pos hafter, ← trimEnd]

theorem trimStart_eq_self {cs : List Char} (h : ∀ c ∈ cs.head?, isBlank c = false) :
    trimStart cs = cs := by
  cases cs with
  | nil => rfl
  | cons c cs =>
    have hc : isBlank c = false := h c rfl
    simp [trimStart, hc]

theorem trimEnd_eq_self {cs : List Char} (h : ∀ c ∈ cs.getLast?, isBlank c = false) :
    trimEnd cs = cs := by
  have hrev : trimStart cs.reverse = cs.reverse := trimStart_eq_self (by simpa using h)
  rw [trimStart] at hrev
  rw [trimEnd, hrev, List.reverse_reverse]

theorem trim_of_pads {cs trimmed : List Char} (h : Pads cs trimmed) : trim cs = trimmed := by
  obtain ⟨⟨hhead, hlast⟩, before, after, rfl, hbefore, hafter⟩ := h
  rw [trim, trimStart_append hbefore]
  cases trimmed with
  | nil =>
    have hnil : trimStart after = trimStart [] := by simpa using trimStart_append hafter []
    rw [List.nil_append, hnil]
    rfl
  | cons c trimmed =>
    have hstart : trimStart (c :: trimmed ++ after) = c :: trimmed ++ after :=
      trimStart_eq_self hhead
    rw [hstart, trimEnd_append hafter, trimEnd_eq_self hlast]

theorem head?_trimStart (cs : List Char) : ∀ c ∈ (trimStart cs).head?, isBlank c = false := by
  intro c hc
  have h := List.head?_dropWhile_not isBlank cs
  rw [trimStart] at hc
  rwa [hc] at h

/-- A text is its start without the white space at the end, and that. -/
theorem exists_trimEnd (cs : List Char) :
    ∃ after, cs = trimEnd cs ++ after ∧ ∀ c ∈ after, isBlank c = true := by
  refine ⟨(cs.reverse.takeWhile isBlank).reverse, ?_, ?_⟩
  · rw [trimEnd, ← List.reverse_append, List.takeWhile_append_dropWhile, List.reverse_reverse]
  · intro c hc
    exact List.all_eq_true.mp List.all_takeWhile c (List.mem_reverse.mp hc)

theorem pads_trim (cs : List Char) : Pads cs (trim cs) := by
  obtain ⟨after, hstart, hafter⟩ := exists_trimEnd (trimStart cs)
  refine ⟨⟨?_, ?_⟩, cs.takeWhile isBlank, after, ?_, ?_, hafter⟩
  · intro c hc
    refine head?_trimStart cs c ?_
    rw [hstart, List.head?_append]
    rw [trim] at hc
    simp [Option.mem_def.mp hc]
  · intro c hc
    rw [trim, trimEnd, List.getLast?_reverse] at hc
    exact head?_trimStart _ c hc
  · rw [trim, ← hstart, trimStart, List.takeWhile_append_dropWhile]
  · exact fun c hc => List.all_eq_true.mp List.all_takeWhile c hc

/-- Trimming takes away the white space at both ends, and nothing else. -/
theorem trim_eq_iff {cs trimmed : List Char} : trim cs = trimmed ↔ Pads cs trimmed := by
  constructor
  · rintro rfl
    exact pads_trim cs
  · exact trim_of_pads

end TaggedRows.Text
