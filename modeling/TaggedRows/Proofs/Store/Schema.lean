import TaggedRows.Proofs.Store.Keeping

/-!
# Tables that are found to keep a type

Whether a table stores a type can be found out from its columns, when all names are plain words:
`RecordType.SuitsTable` is decidable, and enough for `RecordType.StoredIn`.
-/

namespace TaggedRows

open TaggedRows.Sql (Column Table Value)
open TaggedRows.Sql.Grammar (isNameWord)

variable [Sql.Engine]

/-- The place of the column of a field. -/
def Sql.Table.placeOf (u : Table) (e : MappedField) : Nat :=
  (u.columnIndex? e.column).getD u.columns.length

/-- The column takes its own fallback. -/
def Sql.Column.takesFallback (c : Column) : Bool :=
  !c.isNotNull || c.affinity.apply c.fallback ≠ .null

namespace RecordType

/-- The columns of the type are columns of the table that suit the kinds of their fields, the key is
the integer key of the table, and the other columns do without values. -/
structure SuitsTable (t : RecordType) (u : Table) (key : MappedField) : Prop where
  table : isNameWord t.mapping.table = true
  column : ∀ e ∈ t.mapping.selected,
    isNameWord e.column = true ∧ (u.columnIndex? e.column).isSome = true
  nodup_places : (t.mapping.selected.map u.placeOf).Nodup
  key_eq : u.key = some (u.placeOf key)
  key_column : (u.columns[u.placeOf key]?).any fun c => c.affinity = .integer ∧ c.fallback = .null
  uniqueColumns_eq : u.uniqueColumns = []
  suits : ∀ e ∈ t.mapping.columns,
    (u.columns[u.placeOf e]?).all fun c => (t.kindOf e.field).suits c
  fallsBack : ∀ p ∈ u.columns.zipIdx,
    p.2 ∈ t.mapping.selected.map u.placeOf ∨ p.1.takesFallback = true

variable {t : RecordType} {u : Table} {key : MappedField}

instance : Decidable (t.SuitsTable u key) :=
  decidable_of_iff (isNameWord t.mapping.table = true ∧
      (∀ e ∈ t.mapping.selected,
        isNameWord e.column = true ∧ (u.columnIndex? e.column).isSome = true) ∧
      (t.mapping.selected.map u.placeOf).Nodup ∧ u.key = some (u.placeOf key) ∧
      (u.columns[u.placeOf key]?).any (fun c => c.affinity = .integer ∧ c.fallback = .null) = true ∧
      u.uniqueColumns = [] ∧
      (∀ e ∈ t.mapping.columns,
        (u.columns[u.placeOf e]?).all (fun c => (t.kindOf e.field).suits c) = true) ∧
      ∀ p ∈ u.columns.zipIdx,
        p.2 ∈ t.mapping.selected.map u.placeOf ∨ p.1.takesFallback = true)
    ⟨fun ⟨a, b, c, d, e, f, g, h⟩ => ⟨a, b, c, d, e, f, g, h⟩,
      fun ⟨a, b, c, d, e, f, g, h⟩ => ⟨a, b, c, d, e, f, g, h⟩⟩

theorem SuitsTable.storedIn (h : t.SuitsTable u key) :
    t.StoredIn u t.mapping.table key u.placeOf where
  table := (Sql.Grammar.isName_of_isNameWord h.table).isEntity
  column e he := by
    obtain ⟨hw, hi⟩ := h.column e he
    obtain ⟨i, hi⟩ := Option.isSome_iff_exists.mp hi
    exact ⟨e.column, Sql.Grammar.isName_of_isNameWord hw,
      by rw [Table.placeOf, hi, Option.getD_some]⟩
  nodup_places := h.nodup_places
  key_eq := h.key_eq
  key_column := by
    obtain ⟨c, hc, hi⟩ := (Option.any_eq_true ..).mp h.key_column
    exact ⟨c, hc, by simpa using hi⟩
  uniqueColumns_eq := h.uniqueColumns_eq
  keeps e he c hc := by
    have hs := h.suits e he
    rw [hc] at hs
    exact Column.keeps_of_suits hs
  fallsBack i c hc hi := by
    rcases h.fallsBack (c, i) (List.mem_zipIdx_iff_getElem?.mpr hc) with hm | hm
    · obtain ⟨e, he, hp⟩ := List.mem_map.mp hm
      exact absurd hp (hi e he)
    · intro hn
      simpa [Column.takesFallback, hn] using hm

end RecordType

end TaggedRows
