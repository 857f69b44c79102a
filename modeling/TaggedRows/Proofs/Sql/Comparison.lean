import TaggedRows.Sql.Value

/-!
# Values that compare equal

Integers and decimals are compared as numbers, so that values can be equal that are not the same.
Being equal is symmetric and transitive (`Value.compare_eq_symm`, `Value.compare_eq_trans`), and
null only equals itself (`Value.eq_null_of_compare`).

Decimals are compared by sign, by magnitude and then by mantissas that are scaled to the smaller of
two exponents. `Decimal.scaled_eq_iff` frees the last step from the choice of the exponent.
-/

namespace TaggedRows.Sql

/-! ## Numbers -/

namespace Decimal

variable {a b c : Decimal}

/-- The mantissa of the same number for a smaller exponent. -/
def scaled (d : Decimal) (low : Int) : Int := d.mantissa * powerOfTen (d.exponent - low).toNat

theorem scaled_of_le {d : Decimal} {low mid : Int} (hl : low ≤ mid) (hm : mid ≤ d.exponent) :
    d.scaled low = d.scaled mid * powerOfTen (mid - low).toNat := by
  have hexponent : (d.exponent - low).toNat = (d.exponent - mid).toNat + (mid - low).toNat := by
    omega
  rw [scaled, scaled, hexponent, powerOfTen, powerOfTen, powerOfTen, Nat.pow_eq, Nat.pow_eq,
    Nat.pow_eq, Nat.pow_add, Int.natCast_mul, Int.mul_assoc]

theorem scaled_eq_iff {low mid : Int} (hl : low ≤ mid) (ha : mid ≤ a.exponent)
    (hb : mid ≤ b.exponent) : a.scaled low = b.scaled low ↔ a.scaled mid = b.scaled mid := by
  have hpos : (0 : Int) < powerOfTen (mid - low).toNat := by
    exact_mod_cast Nat.pow_pos (by decide : 0 < 10)
  rw [scaled_of_le hl ha, scaled_of_le hl hb]
  exact Int.mul_eq_mul_right_iff (Int.ne_of_gt hpos)

/-- Numbers are equal whose signs, magnitudes and scaled mantissas are. -/
theorem compare_eq_iff : a.compare b = .eq ↔ a.mantissa.sign = b.mantissa.sign ∧
    (a.mantissa = 0 ∨ a.magnitude = b.magnitude ∧
      a.scaled (min a.exponent b.exponent) = b.scaled (min a.exponent b.exponent)) := by
  have hsign := Int.compare_eq_eq (a := a.mantissa.sign) (b := b.mantissa.sign)
  have hmagnitude := Int.compare_eq_eq (a := a.magnitude) (b := b.magnitude)
  unfold compare
  by_cases hs : a.mantissa.sign = b.mantissa.sign
  · rw [hsign.mpr hs]
    by_cases h0 : a.mantissa = 0
    · simp only [h0, if_true, true_or, and_true, true_iff]
      rw [← hs, h0]
    by_cases hm : a.magnitude = b.magnitude
    · rw [hmagnitude.mpr hm]
      simp only [h0, hs, hm, if_false, false_or, true_and, Int.compare_eq_eq, scaled]
    · have hne : Ord.compare a.magnitude b.magnitude ≠ .eq := mt hmagnitude.mp hm
      simp only [h0, hs, hm, if_false, false_or, false_and, and_false, iff_false]
      cases ho : Ord.compare a.magnitude b.magnitude with
      | eq => exact absurd ho hne
      | _ => split <;> nofun
  · have hne : Ord.compare a.mantissa.sign b.mantissa.sign ≠ .eq := mt hsign.mp hs
    simp only [hs, false_and, iff_false]
    cases ho : Ord.compare a.mantissa.sign b.mantissa.sign with
    | eq => exact absurd ho hne
    | _ => nofun

theorem compare_self (d : Decimal) : d.compare d = .eq :=
  compare_eq_iff.mpr ⟨rfl, .inr ⟨rfl, rfl⟩⟩

theorem compare_eq_symm (h : a.compare b = .eq) : b.compare a = .eq := by
  obtain ⟨hs, hm⟩ := compare_eq_iff.mp h
  refine compare_eq_iff.mpr ⟨hs.symm, ?_⟩
  rcases hm with h0 | ⟨hm, he⟩
  · rw [h0] at hs
    exact .inl (Int.sign_eq_zero_iff_zero.mp hs.symm)
  · rw [Int.min_comm]
    exact .inr ⟨hm.symm, he.symm⟩

theorem compare_eq_trans (hab : a.compare b = .eq) (hbc : b.compare c = .eq) :
    a.compare c = .eq := by
  obtain ⟨hs, hm⟩ := compare_eq_iff.mp hab
  obtain ⟨hs', hm'⟩ := compare_eq_iff.mp hbc
  refine compare_eq_iff.mpr ⟨hs.trans hs', ?_⟩
  rcases hm with h0 | ⟨hm, he⟩
  · exact .inl h0
  rcases hm' with h0 | ⟨hm', he'⟩
  · rw [h0] at hs
    exact .inl (Int.sign_eq_zero_iff_zero.mp hs)
  · -- All three numbers are scaled to an exponent that none of them goes below.
    refine .inr ⟨hm.trans hm', ?_⟩
    have hlow : ∃ low, low ≤ a.exponent ∧ low ≤ b.exponent ∧ low ≤ c.exponent :=
      ⟨min a.exponent (min b.exponent c.exponent), by omega, by omega, by omega⟩
    obtain ⟨low, ha, hb, hc⟩ := hlow
    have hab : a.scaled low = b.scaled low :=
      (scaled_eq_iff (by omega) (by omega) (by omega)).mpr he
    have hbc : b.scaled low = c.scaled low :=
      (scaled_eq_iff (by omega) (by omega) (by omega)).mpr he'
    exact (scaled_eq_iff (by omega) (by omega) (by omega)).mp (hab.trans hbc)

end Decimal

/-! ## Values -/

namespace Value

variable {a b c : Value}

/-- A number as a decimal. -/
def decimal? : Value → Option Decimal
  | integer n => some ⟨n, 0⟩
  | real d => some d
  | _ => none

theorem compareBytes_eq_iff {a b : List UInt8} : compareBytes a b = .eq ↔ a = b := by
  induction a generalizing b with
  | nil => cases b <;> simp [compareBytes]
  | cons x a ih =>
    cases b with
    | nil => simp [compareBytes]
    | cons y b =>
      have hxy : Ord.compare x y = .eq ↔ x = y := Std.LawfulEqCmp.compare_eq_iff_eq
      rw [compareBytes, List.cons.injEq, ← ih, ← hxy]
      cases Ord.compare x y <;> simp

/-- Integers are equal as decimals if they are. -/
theorem compare_integer_iff {m n : Int} :
    Decimal.compare ⟨m, 0⟩ ⟨n, 0⟩ = .eq ↔ m = n := by
  rw [Decimal.compare_eq_iff]
  constructor
  · rintro ⟨hs, h0 | ⟨-, he⟩⟩
    · dsimp only at hs h0
      rw [h0] at hs
      rw [h0, Int.sign_eq_zero_iff_zero.mp hs.symm]
    · simpa [Decimal.scaled, Decimal.powerOfTen] using he
  · rintro rfl
    exact ⟨rfl, .inr ⟨rfl, rfl⟩⟩

/-- Values are equal that are the same, or that are the same number. -/
theorem compare_eq_iff : a.compare b = .eq ↔
    a = b ∨ ∃ x y, a.decimal? = some x ∧ b.decimal? = some y ∧ x.compare y = .eq := by
  cases a <;> cases b <;>
    simp [compare, decimal?, rank, compareBytes_eq_iff, compare_integer_iff]
  rintro rfl
  exact Decimal.compare_self _

theorem compare_eq_symm (h : a.compare b = .eq) : b.compare a = .eq := by
  rcases compare_eq_iff.mp h with rfl | ⟨x, y, hx, hy, he⟩
  · exact h
  · exact compare_eq_iff.mpr (.inr ⟨y, x, hy, hx, Decimal.compare_eq_symm he⟩)

theorem compare_eq_trans (hab : a.compare b = .eq) (hbc : b.compare c = .eq) :
    a.compare c = .eq := by
  rcases compare_eq_iff.mp hab with rfl | ⟨x, y, hx, hy, he⟩
  · exact hbc
  rcases compare_eq_iff.mp hbc with rfl | ⟨y', z, hy', hz, he'⟩
  · exact hab
  · rw [hy] at hy'
    cases hy'
    exact compare_eq_iff.mpr (.inr ⟨x, z, hx, hz, Decimal.compare_eq_trans he he'⟩)

/-- Only null equals null. -/
theorem eq_null_of_compare (h : a.compare .null = .eq) : a = .null := by
  rcases compare_eq_iff.mp h with rfl | ⟨x, y, hx, hy, he⟩
  · rfl
  · cases hy

end Value

end TaggedRows.Sql
