/-!
# The decimal digits

A character that is a digit is one of ten (`mem_digitChars`), so what holds of the ten holds of it.
-/

namespace TaggedRows.Text

variable {c : Char}

def digitChars : List Char := ['0', '1', '2', '3', '4', '5', '6', '7', '8', '9']

theorem mem_digitChars (h : c.isDigit = true) : c ∈ digitChars := by
  simp only [Char.isDigit, Bool.and_eq_true, decide_eq_true_eq, UInt32.le_iff_toNat_le,
    ge_iff_le] at h
  have h0 : ('0' : Char).val.toNat = 48 := rfl
  have h9 : ('9' : Char).val.toNat = 57 := rfl
  have hc : c.toNat = c.val.toNat := rfl
  obtain ⟨k, hk, he⟩ : ∃ k < 10, c.toNat = 48 + k := ⟨c.toNat - 48, by omega, by omega⟩
  have hall : ∀ k < 10, Char.ofNat (48 + k) ∈ digitChars := by decide
  have heq : c = Char.ofNat (48 + k) := by rw [← he, Char.ofNat_toNat]
  rw [heq]
  exact hall k hk

/-- A test that every digit passes is passed by a character that is a digit. -/
theorem of_isDigit {p : Char → Bool} (hp : digitChars.all p = true) (h : c.isDigit = true) :
    p c = true :=
  List.all_eq_true.mp hp c (mem_digitChars h)

end TaggedRows.Text
