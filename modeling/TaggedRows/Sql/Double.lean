import TaggedRows.Sql.Value

/-!
# Numbers of double precision

The engine whose floating-point numbers have 53 binary digits. A decimal is read as the nearest of
them, and as the even one of two that are equally near. Texts show 15 digits. Numbers beyond the
greatest are infinite, and stand in the order behind all others.
-/

namespace TaggedRows.Sql

namespace Decimal

/-- The integer next to a fraction, and the even one where two are equally near. -/
def nearestEven (numerator denominator : Nat) : Nat :=
  let q := numerator / denominator
  let r := numerator % denominator
  if 2 * r < denominator ∨ (2 * r = denominator ∧ q % 2 = 0) then q else q + 1

/-- The greatest exponent of 2 whose power is not above a positive fraction. -/
def binaryExponent (numerator denominator : Nat) : Int :=
  let e : Int := numerator.log2 - denominator.log2
  if denominator * Nat.pow 2 e.toNat ≤ numerator * Nat.pow 2 (-e).toNat then e else e - 1

/-- The number `mantissa * 2 ^ exponent`. -/
def ofBinary (mantissa : Nat) (exponent : Int) : Decimal :=
  if 0 ≤ exponent then ⟨mantissa * Nat.pow 2 exponent.toNat, 0⟩
  else ⟨mantissa * Nat.pow 5 (-exponent).toNat, exponent⟩

/-- What stands for infinity. -/
def infinity : Decimal := ⟨1, 400⟩

/-- The number of double precision next to a number that is not negative. -/
def nearestDouble (d : Decimal) : Decimal :=
  if d.mantissa = 0 ∨ d.magnitude < -330 then ⟨0, 0⟩
  else if 310 < d.magnitude then infinity
  else
    let numerator := d.mantissa.natAbs * powerOfTen d.exponent.toNat
    let denominator := powerOfTen (-d.exponent).toNat
    let e := max (binaryExponent numerator denominator - 52) (-1074)
    let q := nearestEven (numerator * Nat.pow 2 (-e).toNat) (denominator * Nat.pow 2 e.toNat)
    if 971 < e ∨ (e = 971 ∧ 9007199254740992 ≤ q) then infinity else ofBinary q e

/-- The number of double precision next to a number. -/
def toDouble (d : Decimal) : Decimal :=
  let nearest := nearestDouble { d with mantissa := d.mantissa.natAbs }
  if d.mantissa < 0 then nearest.negate else nearest

/-! ## Texts -/

/-- The first 15 digits of a positive number, rounded, and its magnitude. -/
def shownDigits (d : Decimal) : List Char × Int :=
  let n := d.mantissa.natAbs
  let ds := Nat.toDigits 10 n
  if ds.length ≤ 15 then (ds, d.magnitude)
  else
    let unit := powerOfTen (ds.length - 15)
    let rounded := Nat.toDigits 10 ((n + unit / 2) / unit)
    (rounded.take 15, d.magnitude + (rounded.length - 15))

/-- Digits without the zeros at their end; one digit is always left. -/
def significant (ds : List Char) : List Char :=
  match (ds.reverse.dropWhile (· = '0')).reverse with
  | [] => ['0']
  | ds => ds

/-- The text of a number: with an exponent where it is very small or has more than 15 digits before
the point. -/
def text (d : Decimal) : String :=
  let sign := if d.mantissa < 0 then "-" else ""
  if d.mantissa = 0 then "0.0"
  else if 310 < d.magnitude then sign ++ "Inf"
  else
    let (ds, magnitude) := shownDigits d
    let body :=
      if magnitude < -3 ∨ 15 < magnitude then
        let e := magnitude - 1
        let es := Nat.toDigits 10 e.natAbs
        ds.take 1 ++ '.' :: significant (ds.drop 1) ++ 'e' :: (if e < 0 then '-' else '+') ::
          List.replicate (2 - es.length) '0' ++ es
      else
        let ds := List.replicate (1 - magnitude).toNat '0' ++ ds
        let places := (max magnitude 1).toNat
        let ds := ds ++ List.replicate (places - ds.length) '0'
        ds.take places ++ '.' :: significant (ds.drop places)
    sign ++ String.ofList body

end Decimal

/-! ## Numbers of new rows -/

/-- The first number from a given one on that is not taken. -/
def freeFrom (n : Int) (taken : List Int) : Int :=
  if n ∈ taken then freeFrom (n + 1) (taken.erase n) else n
termination_by taken.length
decreasing_by
  rename_i h
  have := List.length_erase_of_mem h
  have := List.length_pos_of_mem h
  omega

theorem freeFrom_spec (n : Int) (taken : List Int) :
    n ≤ freeFrom n taken ∧ freeFrom n taken ∉ taken ∧
      ∀ i, n ≤ i → i < freeFrom n taken → i ∈ taken := by
  induction n, taken using freeFrom.induct with
  | case1 n taken h ih =>
    rw [freeFrom, if_pos h]
    obtain ⟨hle, hnot, hall⟩ := ih
    refine ⟨by omega, fun hmem => hnot ((List.mem_erase_of_ne (by omega)).mpr hmem),
      fun i hi hlt => ?_⟩
    by_cases he : i = n
    · exact he ▸ h
    · exact List.mem_of_mem_erase (hall i (by omega) hlt)
  | case2 n taken h =>
    rw [freeFrom, if_neg h]
    exact ⟨Int.le_refl n, h, fun i hi hlt => by omega⟩

/-- New rows take the first number that is free once there is none behind the greatest. -/
instance : Engine where
  round := Decimal.toDouble
  textOf := Decimal.text
  spare := freeFrom 1
  spare_pos taken := (freeFrom_spec 1 taken).1
  spare_notMem taken := (freeFrom_spec 1 taken).2.1
  exists_of_lt_spare taken hlt i hi hle := (freeFrom_spec 1 taken).2.2 i hi (by omega)

end TaggedRows.Sql
