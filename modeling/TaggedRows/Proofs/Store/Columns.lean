import TaggedRows.Proofs.Sql.Arguments
import TaggedRows.Proofs.Sql.Constraints
import TaggedRows.Proofs.Timestamp.Reading
import TaggedRows.Record.Field

/-!
# Columns that keep values

- **Values** (`FieldKind.Admits`): the values of a kind.
- **Keeping** (`Column.Keeps`): every value of a kind is converted, and a column takes it and gives
  it back. A column whose affinity suits the kind does so (`Column.keeps_of_suits`).
- **Giving back** (`Column.GivesBack`): what a column has taken for a value is read as that value.
-/

namespace TaggedRows

open TaggedRows.Sql (Argument Column Value)

variable [Sql.Engine]

/-! ## Values -/

/-- The values of a kind. -/
def FieldKind.Admits : FieldKind → FieldValue → Prop
  | integer low high, .integer n => low ≤ n ∧ n ≤ high
  | flag, .flag _ => True
  | text, .text _ => True
  | time, .time t => t.IsProper
  | bytes, .bytes _ => True
  | own conversion, v => conversion.isValue v
  | optional _, .absent => True
  | optional kind, v => kind.Admits v
  | _, _ => False

/-! ## Keeping -/

/-- A value is converted, and the column takes it and gives it back. -/
structure Sql.Column.KeepsValue (c : Column) (kind : FieldKind) (v : FieldValue) : Prop where
  converts : (kind.argument v).Converts
  accepts : c.Accepts (kind.argument v).converted
  ofSql : kind.ofSql (c.affinity.apply (kind.argument v).converted) = .ok v

/-- The column keeps every value of a kind. -/
def Sql.Column.Keeps (c : Column) (kind : FieldKind) : Prop :=
  ∀ v, kind.Admits v → c.KeepsValue kind v

/-- Whatever the column holds for a value of a kind is read as that value. -/
def Sql.Column.GivesBack (c : Column) (kind : FieldKind) : Prop :=
  ∀ v, kind.Admits v → (kind.argument v).Converts →
    ∀ fallsBack cell, c.kept? fallsBack (kind.argument v).converted = some cell →
      kind.ofSql cell = .ok v

theorem Sql.Column.Keeps.givesBack {c : Column} {kind : FieldKind} (h : c.Keeps kind) :
    c.GivesBack kind := by
  intro v hv _ fallsBack cell hcell
  rw [Column.kept?, if_neg fun hn => (h v hv).accepts hn.1 hn.2] at hcell
  cases hcell
  exact (h v hv).ofSql

/-! ## Columns that suit kinds -/

namespace Sql.Affinity

/-- Affinities that leave integers as they are. -/
def keepsIntegers (a : Affinity) : Bool := a ∈ [integer, numeric, none]

/-- Affinities that leave all texts as they are. -/
def keepsTexts (a : Affinity) : Bool := a ∈ [text, none]

variable {a : Affinity}

theorem apply_integer (h : a.keepsIntegers = true) (n : Int) :
    a.apply (.integer n) = .integer n := by
  cases a <;> first | rfl | cases h

theorem apply_text (h : a.keepsTexts = true) (s : String) : a.apply (.text s) = .text s := by
  cases a <;> first | rfl | cases h

theorem apply_blob (a : Affinity) (bytes : List UInt8) : a.apply (.blob bytes) = .blob bytes := by
  cases a <;> rfl

theorem apply_null (a : Affinity) : a.apply .null = .null := by
  cases a <;> rfl

end Sql.Affinity

/-- The columns that suit a kind. Nothing is known of types with their own conversions. -/
def FieldKind.suits : FieldKind → Column → Bool
  | integer low high, c =>
    decide (Sql.minInteger ≤ low ∧ high ≤ Sql.maxInteger) && c.affinity.keepsIntegers
  | flag, c => c.affinity.keepsIntegers
  | text, c | time, c => c.affinity.keepsTexts
  | bytes, _ => true
  | own _, _ => false
  | optional kind, c => !c.isNotNull && kind.suits c

omit [Sql.Engine] in
/-- Only what may be absent is read from null. -/
theorem FieldKind.eq_absent_of_null {kind : FieldKind} {v : FieldValue} {c : Column}
    (hs : kind.suits c = true) (h : kind.ofSql .null = .ok v) : v = .absent := by
  cases kind with
  | own _ => cases hs
  | optional _ =>
    cases h
    rfl
  | _ => cases h

/-- A column keeps what it leaves as it is. -/
theorem Sql.Column.KeepsValue.of_apply {c : Column} {kind : FieldKind} {v : FieldValue} {w : Value}
    (hb : (kind.argument v).bound = .ok w) (ha : c.affinity.apply w = w) (hn : w ≠ .null)
    (hread : kind.ofSql w = .ok v) : c.KeepsValue kind v := by
  have hw : c.affinity.apply (kind.argument v).converted = w := by
    rw [Argument.converted_eq hb, ha]
  exact ⟨⟨w, hb⟩, fun _ hnull => hn (hw.symm.trans hnull), by rw [hw, hread]⟩

theorem Sql.Column.keeps_of_suits {c : Column} {kind : FieldKind} (h : kind.suits c = true) :
    c.Keeps kind := by
  induction kind with
  | integer low high =>
    rw [FieldKind.suits, Bool.and_eq_true, decide_eq_true_eq] at h
    obtain ⟨⟨hlow, hhigh⟩, ha⟩ := h
    intro v hv
    cases v with
    | integer n =>
      have hrange : Sql.minInteger ≤ n ∧ n ≤ Sql.maxInteger :=
        ⟨Int.le_trans hlow hv.1, Int.le_trans hv.2 hhigh⟩
      exact .of_apply (Argument.bound_integer hrange) (Affinity.apply_integer ha n) nofun
        (if_pos hv)
    | _ => exact hv.elim
  | flag =>
    intro v hv
    cases v with
    | flag b =>
      refine .of_apply (w := Value.ofBool b) ?_ (Affinity.apply_integer h _) nofun ?_ <;>
        cases b <;> rfl
    | _ => exact hv.elim
  | text =>
    intro v hv
    cases v with
    | text s => exact .of_apply (w := Value.text s) rfl (Affinity.apply_text h s) nofun rfl
    | _ => exact hv.elim
  | time =>
    intro v hv
    cases v with
    | time t =>
      refine .of_apply (w := Value.text t.columnText) rfl (Affinity.apply_text h _) nofun ?_
      simp only [FieldKind.ofSql, Timestamp.ofColumn_columnText hv]
    | _ => exact hv.elim
  | bytes =>
    intro v hv
    cases v with
    | bytes bs => exact .of_apply (w := Value.blob bs) rfl (Affinity.apply_blob _ bs) nofun rfl
    | _ => exact hv.elim
  | own _ => cases h
  | optional kind ih =>
    obtain ⟨hn, hk⟩ := Bool.and_eq_true_iff.mp h
    have hnull : c.isNotNull = false := by simpa using hn
    intro v hv
    have haccepts : ∀ w, c.Accepts w := fun w hnot => absurd hnot (by simp [hnull])
    by_cases ha : v = .absent
    · subst ha
      have happly : c.affinity.apply .null = .null := Affinity.apply_null _
      exact ⟨⟨.null, rfl⟩, haccepts _, congrArg (FieldKind.optional kind).ofSql happly⟩
    · have hkind : kind.Admits v := by
        cases v with
        | absent => exact absurd rfl ha
        | _ => exact hv
      have harg : (FieldKind.optional kind).argument v = kind.argument v := by
        cases v with
        | absent => exact absurd rfl ha
        | _ => rfl
      have hread := (ih hk v hkind).ofSql
      refine ⟨harg ▸ (ih hk v hkind).converts, haccepts _, ?_⟩
      rw [harg]
      cases hc : c.affinity.apply (kind.argument v).converted with
      | null =>
        rw [hc] at hread
        exact absurd (FieldKind.eq_absent_of_null hk hread) ha
      | _ =>
        rw [hc] at hread
        exact hread

end TaggedRows
