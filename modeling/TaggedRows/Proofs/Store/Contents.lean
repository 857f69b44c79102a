import TaggedRows.Proofs.Store.Keeping

/-!
# The contents of a table

`Contents` is what a table means for a type: for every key the values of the other columns, if
there is a row. `Represents` ties the rows of a table to such contents.

- **Changes** (`Represents.put`, `Represents.erase`): a row is added or taken away in both.
- **New rows** (`StoredIn.holds_new`, `StoredIn.holds_updated`): the cells that are written for an
  object hold its values.
- **Reading** (`StoredIn.scan_row`): the cells of a row are read back as the values that it holds.
-/

namespace TaggedRows

open TaggedRows.Sql (Row Table Value IsOrdered)

/-- The values of the columns besides the key, by key. -/
abbrev Contents := Int → Option Record

namespace Contents

/-- The contents with another value for a key. -/
def set (m : Contents) (id : Int) (values : Option Record) : Contents :=
  fun i => if i = id then values else m i

theorem set_self (m : Contents) (id : Int) (values : Option Record) : m.set id values id = values :=
  if_pos rfl

theorem set_of_ne (m : Contents) {id i : Int} (h : i ≠ id) (values : Option Record) :
    m.set id values i = m i :=
  if_neg h

/-- Binding a key to what it is bound to changes nothing. -/
theorem set_eq_self (m : Contents) {id : Int} {values : Option Record} (h : m id = values) :
    m.set id values = m := by
  funext i
  by_cases hi : i = id
  · rw [hi, set_self, h]
  · rw [set_of_ne _ hi]

theorem set_set (m : Contents) (id : Int) (a b : Option Record) :
    (m.set id a).set id b = m.set id b := by
  funext i
  by_cases h : i = id
  · rw [h, set_self, set_self]
  · rw [set_of_ne _ h, set_of_ne _ h, set_of_ne _ h]

end Contents

/-- The object with a key and the values of the other columns. -/
def Record.withRow (r : Record) (key : MappedField) (id : Int) (values : Record) : Record :=
  r.assign ((key.field, .integer id) :: values)

namespace RecordType

variable {t : RecordType} {u : Table} {tableName : String} {key : MappedField}
  {place : MappedField → Nat} {rows : List Row} {m : Contents} {row : Row} {r values : Record}
  {id : Int}

/-! ## Reading cells -/

/-- Cells that fit are read into their fields. -/
theorem scanFields_eq (labels : List String) (cells : List Value) (r : Record) (i : Nat)
    (l : List (MappedField × FieldValue)) (hn : (l.map (·.1.field)).Nodup)
    (hc : ∀ j p, l[j]? = some p → ∃ c, cells[i + j]? = some c ∧
      (t.kindOf p.1.field).ofSql c = .ok p.2) :
    t.scanFields labels cells r i (l.map (·.1)) =
      (r.assign (l.map fun p => (p.1.field, p.2)), .ok ()) := by
  induction l generalizing r i with
  | nil => rw [List.map_nil, List.map_nil, Record.assign_nil]; rfl
  | cons p l ih =>
    obtain ⟨hp, hl⟩ := List.nodup_cons.mp hn
    obtain ⟨c, hcell, hok⟩ := hc 0 p rfl
    have hrest := ih (r.set p.1.field p.2) (i + 1) hl fun j q hq => by
      have hj := hc (j + 1) q hq
      rwa [← Nat.add_assoc, Nat.add_right_comm] at hj
    have hnot : p.1.field ∉ (l.map fun p => (p.1.field, p.2)).map (·.1) := by
      rw [List.map_map]
      exact hp
    rw [Nat.add_zero] at hcell
    rw [List.map_cons, List.map_cons, Record.assign_cons _ _ hnot, ← hrest, scanFields, hcell]
    simp only [hok]

/-- Rows that fit are read into fresh objects. -/
theorem ofRows_eq {α : Type} {cells : α → List Value} {f : α → Record} (labels : List String)
    {l : List α} (h : ∀ a ∈ l, t.scan labels (cells a) t.fresh = (f a, .ok ())) :
    t.ofRows labels (l.map cells) = .ok (l.map f) := by
  induction l with
  | nil => rfl
  | cons a l ih =>
    have hrest := ih fun b hb => h b (List.mem_cons_of_mem _ hb)
    rw [List.map_cons, ofRows, h a (List.mem_cons_self ..), hrest]
    rfl

/-- Cells that fit are read into the fields of their columns. -/
theorem IsKeyed.scan_eq (hk : t.IsKeyed key) {cell : MappedField → Value}
    {v : MappedField → FieldValue}
    (h : ∀ e ∈ t.mapping.selected, (t.kindOf e.field).ofSql (cell e) = .ok (v e))
    (labels : List String) (r : Record) :
    t.scan labels (t.mapping.selected.map cell) r =
      (r.assign (t.mapping.selected.map fun e => (e.field, v e)), .ok ()) := by
  let l : List (MappedField × FieldValue) := t.mapping.selected.map fun e => (e, v e)
  have hl : l.map (·.1) = t.mapping.selected := by simp [l, Function.comp_def]
  have hfields : l.map (fun p => (p.1.field, p.2)) =
      t.mapping.selected.map fun e => (e.field, v e) := by simp [l, Function.comp_def]
  have hn : (l.map (·.1.field)).Nodup := by
    have hn := hk.nodup_fields
    rwa [← hl, List.map_map] at hn
  have hcells : ∀ j p, l[j]? = some p → ∃ c, (t.mapping.selected.map cell)[0 + j]? = some c ∧
      (t.kindOf p.1.field).ofSql c = .ok p.2 := by
    intro j p hj
    rw [List.getElem?_map, Option.map_eq_some_iff] at hj
    obtain ⟨e, he, rfl⟩ := hj
    refine ⟨cell e, ?_, h e (List.mem_of_getElem? he)⟩
    rw [Nat.zero_add, List.getElem?_map, he]
    rfl
  have hread := scanFields_eq labels (t.mapping.selected.map cell) r 0 l hn hcells
  rwa [hl, hfields] at hread

/-! ## Changed values -/

/-- The values of a row after a save: the columns that updates leave alone are kept. -/
def merged (t : RecordType) (r values : Record) : Record :=
  t.mapping.columns.map fun e =>
    (e.field, if e.column ∈ t.mapping.fixedColumns then values.get e.field else r.get e.field)

theorem updated_subset {e : MappedField} (he : e ∈ t.mapping.updated) : e ∈ t.mapping.columns :=
  (List.mem_filter.mp he).1

theorem get_merged (hk : t.IsKeyed key) {e : MappedField} (he : e ∈ t.mapping.columns) :
    (merged t r values).get e.field =
      if e ∈ t.mapping.updated then r.get e.field else values.get e.field := by
  refine (Record.get_map (v := fun e : MappedField =>
    if e.column ∈ t.mapping.fixedColumns then values.get e.field else r.get e.field)
    hk.nodup_columns he).trans ?_
  by_cases hf : e.column ∈ t.mapping.fixedColumns
  · have hu : e ∉ t.mapping.updated := by simp [RowMapping.updated, hf]
    rw [if_pos hf, if_neg hu]
  · have hu : e ∈ t.mapping.updated := by simp [RowMapping.updated, hf, he]
    rw [if_neg hf, if_pos hu]

/-! ## Rows and what they stand for -/

variable [Sql.Engine]

/-- The rows of a table and the contents that they stand for. -/
structure Represents (t : RecordType) (u : Table) (key : MappedField) (place : MappedField → Nat)
    (rows : List Row) (m : Contents) : Prop where
  ordered : IsOrdered rows
  isRow : ∀ row ∈ rows, IsRow u place key row
  holds : ∀ row ∈ rows, ∃ values, m row.id = some values ∧ t.Holds u place row values
  exists_row : ∀ id values, m id = some values → ∃ row ∈ rows, row.id = id

/-- The values of a row are those of the columns. -/
theorem Holds.values_eq (hv : t.Holds u place row values) (hk : t.IsKeyed key) :
    values = t.mapping.columns.map fun e => (e.field, values.get e.field) := by
  have hn : (values.map (·.1)).Nodup := by
    rw [hv.map_fst]
    exact hk.nodup_columns
  have he := values.map_get_eq hn
  rw [hv.map_fst, List.map_map] at he
  exact he.symm

namespace Represents

theorem nil : t.Represents u key place [] fun _ => none where
  ordered := .nil
  isRow := by simp
  holds := by simp
  exists_row := by simp

variable (h : t.Represents u key place rows m)

include h

theorem eq_none_iff : m id = none ↔ ∀ row ∈ rows, row.id ≠ id := by
  constructor
  · rintro hm row hr rfl
    obtain ⟨values, hv, -⟩ := h.holds row hr
    rw [hm] at hv
    cases hv
  · intro hr
    cases hm : m id with
    | none => rfl
    | some values =>
      obtain ⟨row, hrow, hid⟩ := h.exists_row id values hm
      exact absurd hid (hr row hrow)

/-- What is known about the row with a key that has values. -/
theorem exists_holds (hm : m id = some values) :
    ∃ row ∈ rows, row.id = id ∧ t.Holds u place row values := by
  obtain ⟨row, hr, rfl⟩ := h.exists_row id values hm
  obtain ⟨values', hv, hh⟩ := h.holds row hr
  rw [hm] at hv
  exact ⟨row, hr, rfl, Option.some.inj hv ▸ hh⟩

/-- The other rows of a table have no part in what some rows stand for. -/
theorem withRows (others : List Row) :
    t.Represents { u with rows := others } key place rows m where
  ordered := h.ordered
  isRow row hr := by
    obtain ⟨hkey, hlength, hmin, hmax⟩ := h.isRow row hr
    exact ⟨hkey, hlength, hmin, hmax⟩
  holds row hr := by
    obtain ⟨values, hv, hfields, hadmits, hcell⟩ := h.holds row hr
    exact ⟨values, hv, hfields, hadmits, hcell⟩
  exists_row := h.exists_row

theorem erase (id : Int) :
    t.Represents u key place (rows.filter (·.id ≠ id)) (m.set id none) where
  ordered := h.ordered.filter _
  isRow row hr := h.isRow row (List.mem_filter.mp hr).1
  holds row hr := by
    obtain ⟨hr, hne⟩ := List.mem_filter.mp hr
    rw [m.set_of_ne (by simpa using hne)]
    exact h.holds row hr
  exists_row i values hm := by
    by_cases hi : i = id
    · rw [hi, m.set_self] at hm
      cases hm
    · rw [m.set_of_ne hi] at hm
      obtain ⟨row, hr, rfl⟩ := h.exists_row i values hm
      exact ⟨row, List.mem_filter.mpr ⟨hr, by simpa using hi⟩, rfl⟩

theorem put (hfree : ∀ r ∈ rows, r.id ≠ row.id) (hrow : IsRow u place key row)
    (hv : t.Holds u place row values) :
    t.Represents u key place (Table.insertOrdered row rows) (m.set row.id (some values)) where
  ordered := h.ordered.insertOrdered hfree
  isRow r hr := by
    rcases Sql.mem_insertOrdered.mp hr with rfl | hr
    · exact hrow
    · exact h.isRow r hr
  holds r hr := by
    rcases Sql.mem_insertOrdered.mp hr with rfl | hr
    · exact ⟨values, m.set_self .., hv⟩
    · rw [m.set_of_ne (hfree r hr)]
      exact h.holds r hr
  exists_row i values' hm := by
    by_cases hi : i = row.id
    · exact ⟨row, Sql.mem_insertOrdered.mpr (.inl rfl), hi.symm⟩
    · rw [m.set_of_ne hi] at hm
      obtain ⟨r, hr, rfl⟩ := h.exists_row i values' hm
      exact ⟨r, Sql.mem_insertOrdered.mpr (.inr hr), rfl⟩

/-- A row in the place of the one with its number. -/
theorem erase_put (hrow : IsRow u place key row) (hv : t.Holds u place row values) :
    t.Represents u key place (Table.insertOrdered row (rows.filter (·.id ≠ row.id)))
      (m.set row.id (some values)) := by
  have hput := (h.erase row.id).put (fun r hr => by simpa using (List.mem_filter.mp hr).2) hrow hv
  rwa [m.set_set] at hput

end Represents

theorem Admits.withRow (hr : t.Admits r) (hk : t.IsKeyed key) (hrow : IsRow u place key row)
    (hv : t.Holds u place row values) : t.Admits (r.withRow key row.id values) := by
  refine hr.assign fun p hp => ?_
  rcases List.mem_cons.mp hp with rfl | hp
  · rw [hk.kindOf_key]
    exact ⟨hrow.minInteger_le, hrow.le_maxInteger⟩
  · rw [hv.values_eq hk] at hp
    obtain ⟨e, he, rfl⟩ := List.mem_map.mp hp
    exact hv.admits e he

/-! ## Writing cells -/

namespace StoredIn

variable (h : t.StoredIn u tableName key place) (hk : t.IsKeyed key) (hr : t.Admits r)
  {given : List (Nat × Value)}

include h

theorem lookup_assigned {l : List MappedField} (hl : ∀ e ∈ l, e ∈ t.mapping.selected)
    {e : MappedField} (he : e ∈ t.mapping.selected) (v : MappedField → Value) :
    (Sql.assigned place v l).lookup (place e) = if e ∈ l then some (v e) else none := by
  split
  · next hm =>
    exact Sql.lookup_assigned
      (fun a ha b hb => h.readBackFrom.eq_of_place_eq (hl a ha) (hl b hb)) hm
  · next hm =>
    refine Sql.lookup_assigned_of_ne fun a ha hp => hm ?_
    rw [← h.readBackFrom.eq_of_place_eq (hl a ha) he hp]
    exact ha

include hk hr

theorem accepts_bound {e : MappedField} (he : e ∈ t.mapping.columns) {c : Sql.Column}
    (hc : u.columns[place e]? = some c) : c.Accepts (t.boundValue r e) :=
  (h.keeps e he c hc _ (hr.get e.field (hk.field_mem e (hk.column_mem he)))).accepts

/-- All arguments for an object are converted. -/
theorem converts {e : MappedField} (he : e ∈ t.mapping.selected) : (t.argument r e).Converts := by
  rw [hk.selected_eq] at he
  rcases List.mem_cons.mp he with rfl | he
  · exact ⟨_, hk.bound_key hr⟩
  · obtain ⟨c, hc⟩ := h.readBackFrom.exists_column (hk.column_mem he)
    exact (h.keeps e he c hc _ (hr.get e.field (hk.field_mem e (hk.column_mem he)))).converts

/-- The columns take what they get in a new row. -/
theorem accepts_new (hg : ∀ e ∈ t.mapping.columns,
      given.lookup (place e) = some (t.boundValue r e))
    (hn : ∀ i, (∀ e ∈ t.mapping.selected, place e ≠ i) → given.lookup i = none) :
    u.AcceptsNew (place key) given := by
  intro i c hc hi
  by_cases he : ∃ e ∈ t.mapping.columns, place e = i
  · obtain ⟨e, he, rfl⟩ := he
    rw [hg e he]
    exact h.accepts_bound hk hr he hc
  · have hne : ∀ e ∈ t.mapping.selected, place e ≠ i := by
      intro e hm
      rw [hk.selected_eq] at hm
      rcases List.mem_cons.mp hm with rfl | hm
      · exact hi.symm
      · exact fun hp => he ⟨e, hm, hp⟩
    rw [hn i hne]
    exact h.fallsBack i c hc hne

omit hk hr in
theorem isRow_new (hid : Sql.minInteger ≤ id ∧ id ≤ Sql.maxInteger) :
    IsRow u place key ⟨id, u.newCells (place key) id given⟩ where
  hasKey := by
    obtain ⟨c, hc, -⟩ := h.key_column
    exact (Sql.Table.newCells_getElem? hc).trans (by rw [if_pos rfl])
  length_eq := by simp [Sql.Table.newCells]
  minInteger_le := hid.1
  le_maxInteger := hid.2

theorem holds_new (hg : ∀ e ∈ t.mapping.columns,
      given.lookup (place e) = some (t.boundValue r e)) :
    t.Holds u place ⟨id, u.newCells (place key) id given⟩ (t.columnValues r) where
  map_fst := by simp [columnValues, Function.comp_def]
  admits e he := by
    rw [hk.columnValues_get he]
    exact hr.get e.field (hk.field_mem e (hk.column_mem he))
  cell e he c hc := by
    rw [boundValue_congr (hk.columnValues_get he)]
    refine (Sql.Table.newCells_getElem? hc).trans ?_
    rw [if_neg (h.readBackFrom.place_ne_key hk he), hg e he]
    rfl

/-! ### Changed rows -/

omit hr in
theorem lookup_updated (v : MappedField → Value) {e : MappedField}
    (he : e ∈ t.mapping.selected) :
    (Sql.assigned place v t.mapping.updated).lookup (place e) =
      if e ∈ t.mapping.updated then some (v e) else none :=
  h.lookup_assigned (fun _ ha => hk.column_mem (updated_subset ha)) he v

omit hr in
/-- An update does not write the key. -/
theorem lookup_updated_key (v : MappedField → Value) :
    (Sql.assigned place v t.mapping.updated).lookup (place key) = none := by
  rw [h.lookup_updated hk v hk.key_mem, if_neg]
  exact fun hm => hk.key_notMem (List.mem_map_of_mem (updated_subset hm))

omit hr in
/-- The order of the changes does not matter. -/
theorem lookup_reverse_updated (v : MappedField → Value) (i : Nat) :
    (Sql.assigned place v t.mapping.updated).reverse.lookup i =
      (Sql.assigned place v t.mapping.updated).lookup i := by
  have hrev : (Sql.assigned place v t.mapping.updated).reverse =
      Sql.assigned place v t.mapping.updated.reverse := List.map_reverse.symm
  rw [hrev]
  by_cases he : ∃ e ∈ t.mapping.updated, place e = i
  · obtain ⟨e, he, rfl⟩ := he
    have hs := hk.column_mem (updated_subset he)
    rw [h.lookup_updated hk v hs, if_pos he, h.lookup_assigned _ hs,
      if_pos (List.mem_reverse.mpr he)]
    exact fun a ha => hk.column_mem (updated_subset (List.mem_reverse.mp ha))
  · have hne : ∀ e ∈ t.mapping.updated, place e ≠ i := fun e hm hp => he ⟨e, hm, hp⟩
    rw [Sql.lookup_assigned_of_ne hne,
      Sql.lookup_assigned_of_ne fun e hm => hne e (List.mem_reverse.mp hm)]

theorem accepts_updated :
    u.AcceptsChange (Sql.assigned place (t.boundValue r) t.mapping.updated) := by
  intro i c v hc hv
  obtain ⟨before, after, he, -⟩ := List.lookup_eq_some_iff.mp hv
  have hm : (i, v) ∈ Sql.assigned place (t.boundValue r) t.mapping.updated := by simp [he]
  obtain ⟨e, hu, hp⟩ := List.mem_map.mp hm
  cases hp
  exact h.accepts_bound hk hr (updated_subset hu) hc

omit hr hk in
theorem isRow_updated (hrow : IsRow u place key row) :
    IsRow u place key ⟨row.id, u.updatedCells (place key) row given⟩ where
  hasKey := by
    obtain ⟨c, hc, -⟩ := h.key_column
    exact (Sql.Table.updatedCells_getElem? hc hrow.hasKey).trans (by rw [if_pos rfl])
  length_eq := by simp [Sql.Table.updatedCells, hrow.length_eq]
  minInteger_le := hrow.minInteger_le
  le_maxInteger := hrow.le_maxInteger

theorem holds_updated (hv : t.Holds u place row values) :
    t.Holds u place
      ⟨row.id, u.updatedCells (place key) row
        (Sql.assigned place (t.boundValue r) t.mapping.updated)⟩ (merged t r values) where
  map_fst := by simp [merged, Function.comp_def]
  admits e he := by
    rw [get_merged hk he]
    split
    · exact hr.get e.field (hk.field_mem e (hk.column_mem he))
    · exact hv.admits e he
  cell e he c hc := by
    refine (Sql.Table.updatedCells_getElem? hc (hv.cell e he c hc)).trans ?_
    have hget : (merged t r values).get e.field =
        if e ∈ t.mapping.updated then r.get e.field else values.get e.field := get_merged hk he
    rw [if_neg (h.readBackFrom.place_ne_key hk he), h.lookup_updated hk _ (hk.column_mem he)]
    split at hget
    · next hu =>
      rw [if_pos hu, boundValue_congr hget]
      rfl
    · next hu =>
      rw [if_neg hu, boundValue_congr hget]
      rfl

end StoredIn

/-! ## Reading rows -/

namespace StoredIn

/-- A row is read back as its number and the values that it holds. -/
theorem scan_row (h : t.StoredIn u tableName key place) (hk : t.IsKeyed key)
    (hrow : IsRow u place key row) (hv : t.Holds u place row values) (labels : List String)
    (r : Record) :
    t.scan labels (t.mapping.selected.map fun e => row.cells.getD (place e) .null) r =
      (r.withRow key row.id values, .ok ()) := by
  let new : Record := (key.field, .integer row.id) :: values
  have hkey : new.get key.field = .integer row.id := (Record.get_cons ..).trans (if_pos rfl)
  have hcolumn : ∀ e ∈ t.mapping.columns, new.get e.field = values.get e.field := by
    intro e he
    have hne : e.field ≠ key.field := fun hf => hk.key_notMem (hf ▸ List.mem_map_of_mem he)
    exact (Record.get_cons ..).trans (if_neg hne)
  have hnew : (t.mapping.selected.map fun e => (e.field, new.get e.field)) = new := by
    rw [hk.selected_eq, List.map_cons, hkey]
    refine congrArg ((key.field, .integer row.id) :: ·) (Eq.trans ?_ (hv.values_eq hk).symm)
    exact List.map_congr_left fun e he => by rw [hcolumn e he]
  have hfits : ∀ e ∈ t.mapping.selected,
      (t.kindOf e.field).ofSql (row.cells.getD (place e) .null) = .ok (new.get e.field) := by
    intro e he
    rw [List.getD_eq_getElem?_getD]
    rw [hk.selected_eq] at he
    rcases List.mem_cons.mp he with rfl | he
    · rw [hrow.hasKey, hk.kindOf_key, hkey]
      exact if_pos ⟨hrow.minInteger_le, hrow.le_maxInteger⟩
    · obtain ⟨c, hc⟩ := h.readBackFrom.exists_column (hk.column_mem he)
      rw [hv.cell e he c hc, hcolumn e he]
      exact (h.keeps e he c hc _ (hv.admits e he)).ofSql
  rw [hk.scan_eq hfits, hnew]
  rfl

end StoredIn

end RecordType

end TaggedRows
