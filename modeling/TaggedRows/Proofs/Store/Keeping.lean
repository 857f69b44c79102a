import TaggedRows.Proofs.Query.Preparing
import TaggedRows.Proofs.Record.Fields
import TaggedRows.Proofs.RowMapping.Fields
import TaggedRows.Proofs.Store.Columns

/-!
# Tables that keep the records of a type

- **Objects** (`RecordType.Admits`): every field holds a value of its kind.
- **Keyed types** (`RecordType.IsKeyed`): what tags make of fields with different names.
- **Tables** (`RecordType.StoredIn`): the key of a type is the integer key of a table, and the other
  columns of the type are columns of the table that keep the kinds of their fields. A table that
  may refuse or replace rows on other grounds still gives back what it has taken
  (`RecordType.ReadBackFrom`).
- **Rows** (`RecordType.Holds`): a row holds the values of the columns of a type besides the key.
-/

namespace TaggedRows

open TaggedRows.Sql (Argument Column Row Table Value)

/-! ## Objects -/

namespace RecordType

variable (t : RecordType)

/-- The record is an object of the type. -/
structure Admits (r : Record) : Prop where
  map_fst : r.map (·.1) = t.fields.map (·.1)
  get : ∀ f ∈ t.fields.map (·.1), (t.kindOf f).Admits (r.get f)

namespace Admits

variable {t} {r : Record} (h : t.Admits r)

include h

theorem nodup (hn : (t.fields.map (·.1)).Nodup) : (r.map (·.1)).Nodup := by
  rw [h.map_fst]
  exact hn

theorem set {f : Ident} {v : FieldValue} (hv : (t.kindOf f).Admits v) : t.Admits (r.set f v) where
  map_fst := (r.map_fst_set v).trans h.map_fst
  get g hg := by
    by_cases hgf : g = f
    · rw [hgf, r.get_set_self v (by rw [h.map_fst, ← hgf]; exact hg)]
      exact hv
    · rw [r.get_set_of_ne v hgf]
      exact h.get g hg

/-- Values of their kinds may be written over an object. -/
theorem assign {new : Record} (hv : ∀ p ∈ new, (t.kindOf p.1).Admits p.2) :
    t.Admits (r.assign new) where
  map_fst := (r.map_fst_assign new).trans h.map_fst
  get f hf := by
    rw [r.get_assign new (h.map_fst ▸ hf)]
    cases hn : new.lookup f with
    | none => exact h.get f hf
    | some v =>
      obtain ⟨before, after, he, -⟩ := List.lookup_eq_some_iff.mp hn
      exact hv (f, v) (by simp [he])

end Admits

/-- What a statement binds for a field of an object, if that is converted. -/
def boundValue (r : Record) (e : MappedField) : Value := (t.argument r e).converted

theorem boundValue_congr {t : RecordType} {r r' : Record} {e : MappedField}
    (h : r.get e.field = r'.get e.field) : t.boundValue r e = t.boundValue r' e := by
  rw [boundValue, boundValue, argument, argument, h]

theorem mapM_bound_eq_ok_iff {t : RecordType} {r : Record} {l : List MappedField}
    {parameters : List Value} : (l.map (t.argument r)).mapM Argument.bound = .ok parameters ↔
      (∀ e ∈ l, (t.argument r e).Converts) ∧ parameters = l.map (t.boundValue r) := by
  rw [Argument.mapM_bound_eq_ok_iff, List.forall_mem_map, List.map_map]
  rfl

/-- What an object says about the columns besides the key. -/
def columnValues (r : Record) : Record :=
  t.mapping.columns.map fun e => (e.field, r.get e.field)

/-- The type has a key, each of its fields is stored once, and no column holds a comma. -/
structure IsKeyed (key : MappedField) : Prop where
  nodup : (t.fields.map (·.1)).Nodup
  key_eq : t.mapping.key = some key
  kindOf_key : t.kindOf key.field = .key
  field_mem : ∀ e ∈ t.mapping.selected, e.field ∈ t.fields.map (·.1)
  nodup_fields : (t.mapping.selected.map (·.field)).Nodup
  isCommaFree : ∀ e ∈ t.mapping.selected, ',' ∉ e.column.toList

/-! ## Types made by tags -/

section Tags

/-- The fields with what their tags say. -/
def tagsOf (fields : List (String × FieldKind × String)) : List TaggedField :=
  fields.map fun (field, _, tag) => ⟨.ofText field, .ofTag tag⟩

variable {name : String} {modules : List String} {fields : List (String × FieldKind × String)}
  {t : RecordType} {key : MappedField} (ht : ofTags? name modules fields = some t)

include ht

theorem exists_describes : ∃ m : RowMapping, m.Describes (.ofText name) (tagsOf fields) ∧
    t = ⟨fields.map fun (field, kind, _) => (.ofText field, kind),
      m.inModules (modules.map Ident.ofText)⟩ := by
  rw [ofTags?] at ht
  split at ht
  · next m hm =>
    exact ⟨m, RowMapping.describes_of_ofFields hm, (Option.some.inj ht).symm⟩
  · cases ht

theorem map_fst_fields : t.fields.map (·.1) = (tagsOf fields).map (·.ident) := by
  obtain ⟨m, -, rfl⟩ := exists_describes ht
  simp [tagsOf, Function.comp_def]

/-- The key is read first, and then the other stored fields as they are declared. -/
theorem selected_eq_of_ofTags? :
    t.mapping.selected = keyFields (tagsOf fields) ++ plainFields (tagsOf fields) := by
  obtain ⟨m, hd, rfl⟩ := exists_describes ht
  exact hd.selected_eq

theorem field_mem_of_ofTags? {e : MappedField} (he : e ∈ t.mapping.selected) :
    e.field ∈ t.fields.map (·.1) := by
  rw [selected_eq_of_ofTags? ht] at he
  rw [map_fst_fields ht]
  exact field_mem_of_mem_stored he

/-- The field that names the table is stored. -/
theorem selected_ne_nil_of_ofTags? : t.mapping.selected ≠ [] := by
  obtain ⟨m, hd, rfl⟩ := exists_describes ht
  obtain ⟨f, hf, htable⟩ := List.mem_filterMap.mp (List.mem_of_getLast? hd.table)
  obtain ⟨column, hcolumn, -⟩ := Option.bind_eq_some_iff.mp htable
  have hstored : f.stored? = some ⟨f.ident, column⟩ := by rw [TaggedField.stored?, hcolumn]; rfl
  have hmem : ⟨f.ident, column⟩ ∈ keyFields (tagsOf fields) ++ plainFields (tagsOf fields) := by
    by_cases hkey : f.tag.isKey = true
    · exact List.mem_append_left _ (List.mem_filterMap.mpr ⟨f, hf, by
        rw [TaggedField.storedKey?, if_pos hkey, hstored]⟩)
    · exact List.mem_append_right _ (List.mem_filterMap.mpr ⟨f, hf, by
        rw [TaggedField.storedPlain?, if_neg hkey, hstored]⟩)
  exact List.ne_nil_of_mem (hd.selected_eq ▸ hmem : _ ∈ m.selected)

theorem column_ne_empty_of_ofTags? {e : MappedField} (he : e ∈ t.mapping.selected) :
    e.column ≠ "" := by
  obtain ⟨m, hd, rfl⟩ := exists_describes ht
  have hd' : m.Describes (.ofText name)
      ((fields.map fun (field, _, tag) => (Ident.ofText field, tag)).map .ofTag) := by
    simpa [tagsOf, TaggedField.ofTag, Function.comp_def] using hd
  exact hd'.column_ne_empty e he

theorem keyField_eq_of_ofTags? (hkey : t.mapping.key = some key) :
    t.mapping.access.keyField = key.column ∧ key.column ≠ "" := by
  have hmem : key ∈ t.mapping.selected := by simp [RowMapping.selected, hkey]
  have hkeyField : t.mapping.access.keyField = key.column := by
    simp [RowMapping.access, RowMapping.keyColumn, hkey]
  exact ⟨hkeyField, column_ne_empty_of_ofTags? ht hmem⟩

variable (hn : (t.fields.map (·.1)).Nodup)

include hn

theorem nodup_fields_of_ofTags? : (t.mapping.selected.map (·.field)).Nodup := by
  rw [selected_eq_of_ofTags? ht]
  exact nodup_fields (map_fst_fields ht ▸ hn)

/-- Fields with different names are each stored once. -/
theorem isKeyed_of_ofTags? (hkey : t.mapping.key = some key) (hkind : t.kindOf key.field = .key)
    (hf : ∀ e ∈ t.mapping.selected, ',' ∉ e.column.toList) : t.IsKeyed key :=
  ⟨hn, hkey, hkind, fun _ he => field_mem_of_ofTags? ht he, nodup_fields_of_ofTags? ht hn, hf⟩

theorem mem_updated_iff (hc : (t.mapping.columns.map (·.column)).Nodup) {e : MappedField}
    (he : e ∈ t.mapping.columns) :
    e ∈ t.mapping.updated ↔
      ∃ f ∈ tagsOf fields, f.ident = e.field ∧ f.tag.updatable = true := by
  have hnames := map_fst_fields ht
  obtain ⟨m, hd, hm⟩ := exists_describes ht
  have hcolumns : t.mapping.columns = m.columns := by rw [hm]; rfl
  have hupdated : t.mapping.updated = m.updated := by rw [hm]; rfl
  rw [hcolumns] at hc he
  rw [hupdated]
  exact hd.mem_updated_iff (hnames ▸ hn) hc he

end Tags

/-! ## Tables -/

section Tables

variable [Sql.Engine]

/-- The table stores the type: its name is written as in the mapping, `place` says where the
columns of the type are, the key is the integer key of the table, and nothing else tells rows
apart. -/
structure StoredIn (u : Table) (tableName : String) (key : MappedField)
    (place : MappedField → Nat) : Prop where
  table : Sql.Grammar.IsEntity t.mapping.table.toList tableName
  column : ∀ e ∈ t.mapping.selected, Query.IsColumn u e.column (place e)
  nodup_places : (t.mapping.selected.map place).Nodup
  key_eq : u.key = some (place key)
  key_column : ∃ c, u.columns[place key]? = some c ∧ c.affinity = .integer ∧ c.fallback = .null
  uniqueColumns_eq : u.uniqueColumns = []
  keeps : ∀ e ∈ t.mapping.columns, ∀ c, u.columns[place e]? = some c → c.Keeps (t.kindOf e.field)
  fallsBack : ∀ i c, u.columns[i]? = some c → (∀ e ∈ t.mapping.selected, place e ≠ i) →
    c.Accepts c.fallback

/-- The columns of the type are columns of the table, one each, the key is the integer key of the
table, and the other columns give back the values of their fields. -/
structure ReadBackFrom (u : Table) (tableName : String) (key : MappedField)
    (place : MappedField → Nat) : Prop where
  table : Sql.Grammar.IsEntity t.mapping.table.toList tableName
  column : ∀ e ∈ t.mapping.selected, Query.IsColumn u e.column (place e)
  nodup_places : (t.mapping.selected.map place).Nodup
  key_eq : u.key = some (place key)
  key_column : ∃ c, u.columns[place key]? = some c ∧ c.affinity = .integer ∧ c.fallback = .null
  givesBack : ∀ e ∈ t.mapping.columns, ∀ c, u.columns[place e]? = some c →
    c.GivesBack (t.kindOf e.field)

end Tables

variable {t} {key : MappedField} {u : Table} {tableName : String} {place : MappedField → Nat}
  {r : Record} {parameters : List Value}

theorem StoredIn.readBackFrom [Sql.Engine] (h : t.StoredIn u tableName key place) :
    t.ReadBackFrom u tableName key place :=
  ⟨h.table, h.column, h.nodup_places, h.key_eq, h.key_column, fun e he c hc =>
    (h.keeps e he c hc).givesBack⟩

/-- The other rows of a table have no part in how it stores a type. -/
theorem StoredIn.withRows [Sql.Engine] (h : t.StoredIn u tableName key place) (rows : List Row) :
    t.StoredIn { u with rows := rows } tableName key place :=
  ⟨h.table, h.column, h.nodup_places, h.key_eq, h.key_column, h.uniqueColumns_eq, h.keeps,
    h.fallsBack⟩

namespace IsKeyed

variable (h : t.IsKeyed key)

include h

theorem selected_eq : t.mapping.selected = key :: t.mapping.columns := by
  rw [RowMapping.selected, h.key_eq]
  rfl

theorem key_mem : key ∈ t.mapping.selected := by
  rw [h.selected_eq]
  exact List.mem_cons_self ..

theorem selected_ne_nil : t.mapping.selected ≠ [] := List.ne_nil_of_mem h.key_mem

theorem column_mem {e : MappedField} (he : e ∈ t.mapping.columns) : e ∈ t.mapping.selected := by
  rw [h.selected_eq]
  exact List.mem_cons_of_mem _ he

theorem nodup_columns : (t.mapping.columns.map (·.field)).Nodup := by
  have hn := h.nodup_fields
  rw [h.selected_eq] at hn
  exact (List.nodup_cons.mp hn).2

theorem key_notMem : key.field ∉ t.mapping.columns.map (·.field) := by
  have hn := h.nodup_fields
  rw [h.selected_eq] at hn
  exact (List.nodup_cons.mp hn).1

/-- The key of an object is an integer. -/
theorem get_key (hr : t.Admits r) : r.get key.field = .integer (t.keyOf r) ∧
    Sql.minInteger ≤ t.keyOf r ∧ t.keyOf r ≤ Sql.maxInteger := by
  have ha := hr.get key.field (h.field_mem key h.key_mem)
  rw [h.kindOf_key] at ha
  cases hg : r.get key.field with
  | integer n =>
    have hn : t.keyOf r = n := by
      rw [keyOf, h.key_eq]
      simp only [hg]
    rw [hg] at ha
    rw [hn]
    exact ⟨rfl, ha⟩
  | _ =>
    rw [hg] at ha
    exact ha.elim

/-- The argument for the key. -/
theorem argument_key (hr : t.Admits r) : t.argument r key = .value (.integer (t.keyOf r)) := by
  rw [argument, h.kindOf_key, (h.get_key hr).1]
  rfl

theorem bound_key (hr : t.Admits r) : (t.argument r key).bound = .ok (.integer (t.keyOf r)) := by
  rw [h.argument_key hr, Argument.bound_integer (h.get_key hr).2]

/-- What a statement binds for the key. -/
theorem boundValue_key (hr : t.Admits r) : t.boundValue r key = .integer (t.keyOf r) :=
  Argument.converted_eq (h.bound_key hr)

theorem keyField_eq : t.mapping.access.keyField = key.column := by
  rw [RowMapping.access, RowMapping.keyColumn, h.key_eq]
  rfl

theorem withKey_eq (r : Record) (id : Int) : t.withKey r id = r.set key.field (.integer id) := by
  rw [withKey, h.key_eq]

theorem columnValues_get {e : MappedField} (he : e ∈ t.mapping.columns) :
    (t.columnValues r).get e.field = r.get e.field :=
  Record.get_map (v := fun e : MappedField => r.get e.field) h.nodup_columns he

/-! ### Objects with other keys -/

/-- The columns besides the key have the same arguments, whatever the key is. -/
theorem argument_withKey {e : MappedField} (he : e ∈ t.mapping.columns) (id : Int) :
    t.argument (t.withKey r id) e = t.argument r e := by
  have hne : e.field ≠ key.field := fun hf => h.key_notMem (hf ▸ List.mem_map_of_mem he)
  rw [argument, h.withKey_eq, r.get_set_of_ne _ hne, argument]

theorem boundValue_withKey {e : MappedField} (he : e ∈ t.mapping.columns) (id : Int) :
    t.boundValue (t.withKey r id) e = t.boundValue r e := by
  rw [boundValue, h.argument_withKey he, boundValue]

theorem keyOf_withKey (hr : t.Admits r) (id : Int) : t.keyOf (t.withKey r id) = id := by
  rw [keyOf, h.key_eq, h.withKey_eq]
  dsimp only
  rw [r.get_set_self _ (hr.map_fst ▸ h.field_mem key h.key_mem)]

theorem withKey_keyOf (hr : t.Admits r) : t.withKey r (t.keyOf r) = r := by
  rw [h.withKey_eq, ← (h.get_key hr).1]
  exact r.set_get (hr.nodup h.nodup) (hr.map_fst ▸ h.field_mem key h.key_mem)

theorem admits_withKey {id : Int} (hr : t.Admits r)
    (hid : Sql.minInteger ≤ id ∧ id ≤ Sql.maxInteger) :
    t.Admits (t.withKey r id) := by
  rw [h.withKey_eq]
  refine hr.set ?_
  rw [h.kindOf_key]
  exact hid

/-! ### Arguments of statements -/

/-- A replacement by key has the arguments for all columns. -/
theorem map_argument_selected (hr : t.Admits r) :
    t.mapping.selected.map (t.argument r) =
      .value (.integer (t.keyOf r)) :: t.insertValues r := by
  rw [h.selected_eq, List.map_cons, h.argument_key hr]
  rfl

/-- The key is bound last. -/
theorem updateValues_eq : t.updateValues r = (t.mapping.updated ++ [key]).map (t.argument r) := by
  rw [updateValues, h.key_eq, List.map_append]
  rfl

theorem mapM_bound_updateValues (hr : t.Admits r) :
    (t.updateValues r).mapM Argument.bound = .ok parameters ↔
      (∀ e ∈ t.mapping.updated, (t.argument r e).Converts) ∧
        parameters = t.mapping.updated.map (t.boundValue r) ++ [.integer (t.keyOf r)] := by
  have hkey : (t.argument r key).Converts := ⟨_, h.bound_key hr⟩
  rw [h.updateValues_eq, mapM_bound_eq_ok_iff, List.forall_mem_append, List.map_append,
    List.forall_mem_singleton, List.map_singleton, h.boundValue_key hr, and_iff_left hkey]

end IsKeyed

namespace ReadBackFrom

variable [Sql.Engine] (h : t.ReadBackFrom u tableName key place) (hk : t.IsKeyed key)

include h

theorem withRows (rows : List Row) : t.ReadBackFrom (u.withRows rows) tableName key place :=
  ⟨h.table, h.column, h.nodup_places, h.key_eq, h.key_column, h.givesBack⟩

theorem key_lt : place key < u.columns.length := by
  obtain ⟨c, hc, -⟩ := h.key_column
  exact (List.getElem?_eq_some_iff.mp hc).1

/-- No two columns of the type are in one place. -/
theorem eq_of_place_eq {a b : MappedField} (ha : a ∈ t.mapping.selected)
    (hb : b ∈ t.mapping.selected) (he : place a = place b) : a = b :=
  List.inj_on_of_nodup_map h.nodup_places ha hb he

theorem exists_column {e : MappedField} (he : e ∈ t.mapping.selected) :
    ∃ c, u.columns[place e]? = some c := by
  obtain ⟨name, -, hi⟩ := h.column e he
  exact ⟨_, List.getElem?_eq_getElem (List.findIdx?_eq_some_iff_getElem.mp hi).1⟩

section

variable {n : Nat} {id : Int}
  (hn : parameters[n]? = some (.integer id))

include hn

/-- A condition on the key holds of the row with that number. -/
theorem holds_key {row : Row} (hr : row.HasKey (place key)) :
    Sql.Term.holds (some (Sql.Plan.keyCondition u (place key) n)) parameters row =
      decide (row.id = id) := by
  obtain ⟨c, hc, ha, -⟩ := h.key_column
  exact Sql.holds_keyCondition hc ha hn hr

theorem filter_key (hr : ∀ row ∈ u.rows, row.HasKey (place key)) :
    u.rows.filter (Sql.Term.holds (some (Sql.Plan.keyCondition u (place key) n)) parameters) =
      u.rows.filter (·.id = id) :=
  List.filter_congr fun row hrow => h.holds_key hn (hr row hrow)

end

include hk

theorem place_ne_key {e : MappedField} (he : e ∈ t.mapping.columns) : place e ≠ place key := by
  intro hp
  have hek := h.eq_of_place_eq (hk.column_mem he) hk.key_mem hp
  exact hk.key_notMem (hek ▸ List.mem_map_of_mem he)

end ReadBackFrom

/-! ## Rows -/

variable (t u place)

/-- The row holds the values of the columns besides the key. -/
structure Holds [Sql.Engine] (row : Row) (values : Record) : Prop where
  map_fst : values.map (·.1) = t.mapping.columns.map (·.field)
  admits : ∀ e ∈ t.mapping.columns, (t.kindOf e.field).Admits (values.get e.field)
  cell : ∀ e ∈ t.mapping.columns, ∀ c, u.columns[place e]? = some c →
    row.cells[place e]? = some (c.affinity.apply (t.boundValue values e))

/-- The cells of a row of the table, with its number in the column of the key. -/
structure IsRow (key : MappedField) (row : Row) : Prop where
  hasKey : row.HasKey (place key)
  length_eq : row.cells.length = u.columns.length
  minInteger_le : Sql.minInteger ≤ row.id
  le_maxInteger : row.id ≤ Sql.maxInteger

variable {t u place}

end RecordType

end TaggedRows
