import TaggedRows.Proofs.Store.Operations

/-!
# Tables that stay sound

A table may have unique columns, columns that refuse null and columns that a type does not know, so
that a write may fail or take other rows away. What is written is read back all the same.

- **Rows** (`RecordType.IsRowOf`, `ReadBackFrom.scan_row`): an object that is read from its own row
  does not change.
- **Handles** (`Serves`): the table behind a handle gives back a type, and is sound.
- **Operations** (`Serves.add_cases`, `Serves.replace_cases_of_new`, `Serves.replace_cases_of_key`,
  `Serves.save_cases`, `Serves.delete_cases`): whether they succeed or fail, they leave a sound
  table, and an object that is stored has the key of its row.
- **Own rows** (`Serves.findSelf_eq`, `Serves.replace_eq`): an object with a key is found in its
  row, and takes its place.
-/

namespace TaggedRows

open TaggedRows.Sql (Argument Column Row Table Value)

variable [Sql.Engine]

namespace RecordType

variable {t : RecordType} {u : Table} {tableName : String} {key : MappedField}
  {place : MappedField → Nat} {row : Row} {r : Record}

/-! ## Rows -/

/-- The values of the object are converted, and the row is what becomes of it when it is written
with its key. -/
structure IsRowOf (t : RecordType) (u : Table) (place : MappedField → Nat) (row : Row)
    (r : Record) : Prop where
  keyOf_eq : t.keyOf r = row.id
  converts : ∀ e ∈ t.mapping.selected, (t.argument r e).Converts
  cells_eq : u.cellsOf true row.id
    (u.newValues (Sql.assigned place (t.boundValue r) t.mapping.selected)) = .ok row.cells

omit [Sql.Engine] in
theorem IsRow.fits (h : IsRow u place key row) : u.Fits (place key) row :=
  ⟨h.hasKey, h.length_eq, h.minInteger_le, h.le_maxInteger⟩

theorem IsRowOf.withRows (h : t.IsRowOf u place row r) (rows : List Row) :
    t.IsRowOf (u.withRows rows) place row r :=
  ⟨h.keyOf_eq, h.converts, h.cells_eq⟩

namespace ReadBackFrom

variable (h : t.ReadBackFrom u tableName key place) (hk : t.IsKeyed key)

include h hk

/-- The cell of a column, in the row of an object. -/
theorem exists_cell (hrow : t.IsRowOf u place row r) {e : MappedField}
    (he : e ∈ t.mapping.columns) : ∃ c cell, u.columns[place e]? = some c ∧
      row.cells[place e]? = some cell ∧ c.kept? true (t.boundValue r e) = some cell := by
  obtain ⟨c, hc⟩ := h.exists_column (hk.column_mem he)
  obtain ⟨hlength, hcells⟩ := (Table.cellsOf_eq_ok_iff Table.length_newValues).mp hrow.cells_eq
  have hlt : place e < row.cells.length := by
    rw [hlength]
    exact (List.getElem?_eq_some_iff.mp hc).1
  have hvalue : (u.newValues (Sql.assigned place (t.boundValue r) t.mapping.selected))[place e]? =
      some (t.boundValue r e) := by
    have hlookup := Sql.lookup_assigned (v := t.boundValue r)
      (fun a ha b hb => h.eq_of_place_eq ha hb) (hk.column_mem he)
    simp [Table.newValues, hc, hlookup]
  have hcell := hcells (place e) c _ _ hc hvalue (List.getElem?_eq_getElem hlt)
  rw [if_neg fun hkey => h.place_ne_key hk he (Option.some.inj (hkey.symm.trans h.key_eq))] at hcell
  exact ⟨c, _, hc, List.getElem?_eq_getElem hlt, hcell⟩

/-- An object that is read from its own row does not change. -/
theorem scan_row (hr : t.Admits r) (hkey : row.HasKey (place key))
    (hrow : t.IsRowOf u place row r) (labels : List String) :
    t.scan labels (t.mapping.selected.map fun e => row.cells.getD (place e) .null) r =
      (r, .ok ()) := by
  have hfits : ∀ e ∈ t.mapping.selected,
      (t.kindOf e.field).ofSql (row.cells.getD (place e) .null) = .ok (r.get e.field) := by
    intro e he
    rw [List.getD_eq_getElem?_getD]
    rw [hk.selected_eq] at he
    rcases List.mem_cons.mp he with rfl | he
    · obtain ⟨hget, hrange⟩ := hk.get_key hr
      rw [hkey, hk.kindOf_key, hget, ← hrow.keyOf_eq]
      exact if_pos hrange
    · obtain ⟨c, cell, hc, hcell, hkept⟩ := h.exists_cell hk hrow he
      rw [hcell]
      exact h.givesBack e he c hc _ (hr.get e.field (hk.field_mem e (hk.column_mem he)))
        (hrow.converts e (hk.column_mem he)) _ _ hkept
  have hown : r.assign (t.mapping.selected.map fun e => (e.field, r.get e.field)) = r := by
    refine r.assign_get (hr.nodup hk.nodup) fun p hp => ?_
    obtain ⟨e, -, rfl⟩ := List.mem_map.mp hp
    rfl
  rw [hk.scan_eq hfits, hown]

end ReadBackFrom

end RecordType

namespace Store

open TaggedRows.Store.Action
open TaggedRows.Sql (Prepared Plan)
open TaggedRows.RecordType

/-- The handle can be used, and its table gives back the type and is sound. -/
structure Serves (t : RecordType) (tableName : String) (key : MappedField)
    (place : MappedField → Nat) (h : Handle) (u : Table) : Prop where
  isPoisoned_eq : h.isPoisoned = false
  table_eq : h.connection.database.table tableName = .ok u
  readBackFrom : t.ReadBackFrom u tableName key place
  isSound : u.IsSound (place key)

variable {t : RecordType} {tableName : String} {key : MappedField} {place : MappedField → Nat}
  {h : Handle} {r : Record} {u : Table} {row : Row} {id : Int}

/-- A table that stands for some contents is sound. -/
theorem Stands.serves {m : Contents} (hs : Stands t tableName key place h u m) :
    Serves t tableName key place h u where
  isPoisoned_eq := hs.isPoisoned_eq
  table_eq := hs.table_eq
  readBackFrom := hs.storedIn.readBackFrom
  isSound :=
    { key_eq := hs.storedIn.key_eq
      key_lt := hs.storedIn.readBackFrom.key_lt
      ordered := hs.represents.ordered
      fits := fun row hrow => (hs.represents.isRow row hrow).fits
      distinct := fun a ha b hb _ hclash => by
        obtain ⟨i, hi, -⟩ := hclash
        rw [hs.storedIn.uniqueColumns_eq] at hi
        cases hi }

namespace Serves

variable (hs : Serves t tableName key place h u) (hk : t.IsKeyed key)

include hs

/-- The handle after a change of the rows. -/
theorem change {rows : List Row} (hr : (u.withRows rows).IsSound (place key)) (k : Nat) (id : Int) :
    Serves t tableName key place
      { h with connection := { h.connection with
        database := h.connection.database.setTable (u.withRows rows)
        changes := k
        lastId := id } } (u.withRows rows) where
  isPoisoned_eq := hs.isPoisoned_eq
  table_eq := Sql.Database.table_setTable hs.table_eq rfl
  readBackFrom := hs.readBackFrom.withRows rows
  isSound := hr

/-- A failed change keeps the table. -/
theorem failed : Serves t tableName key place
    { h with connection := { h.connection with changes := 0 } } u :=
  ⟨hs.isPoisoned_eq, hs.table_eq, hs.readBackFrom, hs.isSound⟩

include hk

theorem isColumn_key : Query.IsColumn u t.mapping.access.keyField (place key) := by
  rw [hk.keyField_eq]
  exact hs.readBackFrom.column key hk.key_mem

theorem keyField_ne_empty : t.mapping.access.keyField ≠ "" := (hs.isColumn_key hk).ne_empty

omit hk in
/-- A condition on the key selects the row with that number. -/
theorem filter_key {n : Nat} {parameters : List Value}
    (hn : parameters[n]? = some (.integer id)) :
    u.rows.filter (Sql.Term.holds (some (Plan.keyCondition u (place key) n)) parameters) =
      u.rows.filter fun row => decide (row.id = id) :=
  hs.readBackFrom.filter_key hn fun row hrow => (hs.isSound.fits row hrow).hasKey

/-! ## Statements -/

/-- A row that is written is in the table afterwards, with the cells that its values make. A write
that fails leaves the table as it is. -/
theorem execute_write {l : List MappedField} (hl : ∀ e ∈ l, e ∈ t.mapping.selected)
    (replaces : Bool) (hrange : ∀ id,
      u.newId (u.newValues (Sql.assigned place (t.boundValue r) l)) = .ok id →
      Sql.minInteger ≤ id ∧ id ≤ Sql.maxInteger) :
    (∃ log h' e, execute (Query.write (Query.verbOf replaces) t.mapping.table
        (RowMapping.joinColumns l)) (l.map (t.argument r)) h = ⟨log, h', .error e⟩ ∧
      Serves t tableName key place h' u) ∨
    ∃ id cells rows log h', (∀ e ∈ l, (t.argument r e).Converts) ∧
      u.newId (u.newValues (Sql.assigned place (t.boundValue r) l)) = .ok id ∧
      u.cellsOf replaces id (u.newValues (Sql.assigned place (t.boundValue r) l)) = .ok cells ∧
      ⟨id, cells⟩ ∈ rows ∧
      execute (Query.write (Query.verbOf replaces) t.mapping.table
        (RowMapping.joinColumns l)) (l.map (t.argument r)) h = ⟨log, h', .ok ⟨1, id⟩⟩ ∧
      Serves t tableName key place h' (u.withRows rows) := by
  have hq := Query.prepared_write hs.table_eq hs.readBackFrom.table
    (fun e he => hs.readBackFrom.column e (hl e he)) (fun e he => hk.isCommaFree e (hl e he))
    replaces
  cases hb : (l.map (t.argument r)).mapM Argument.bound with
  | error fault =>
    rw [← List.length_map (t.argument r)] at hq
    exact .inl ⟨_, _, _, execute_of_conversion hs.isPoisoned_eq hq hb, hs⟩
  | ok parameters =>
    obtain ⟨hconverts, rfl⟩ := mapM_bound_eq_ok_iff.mp hb
    rw [← List.length_map (t.boundValue r)] at hq
    have he : Sql.Effect.ofPlan h.connection.database (l.map (t.boundValue r))
        (.insert replaces tableName [Plan.sources u place l]) = _ :=
      Sql.Effect.ofPlan_insert hs.table_eq replaces
    cases hw : (if replaces then u.replace (u.newValues (Sql.assigned place (t.boundValue r) l))
        else u.insert (u.newValues (Sql.assigned place (t.boundValue r) l))) with
    | error e =>
      rw [hw] at he
      exact .inl ⟨_, _, _, execute_of_fault hs.isPoisoned_eq hq hb he, hs.failed⟩
    | ok p =>
      obtain ⟨u', id⟩ := p
      rw [hw] at he
      obtain ⟨cells, hid, hcells, hmem, hsound, rows, rfl⟩ :=
        hs.isSound.write hw Table.length_newValues hrange
      exact .inr ⟨id, cells, rows, _, _, hconverts, hid, hcells, hmem,
        execute_of_effect hs.isPoisoned_eq hq hb he, hs.change hsound 1 id⟩

/-- An update whose values are converted leaves a sound table, whether or not it succeeds. -/
theorem execute_update_of_bound (hu : t.mapping.updated ≠ []) (hr : t.Admits r)
    {parameters : List Value} (hb : (t.updateValues r).mapM Argument.bound = .ok parameters) :
    ∃ log h' result rows,
      execute (Query.update t.mapping.access) (t.updateValues r) h = ⟨log, h', result⟩ ∧
      Serves t tableName key place h' (u.withRows rows) := by
  have hl : ∀ e ∈ t.mapping.updated, e ∈ t.mapping.columns := fun e he =>
    (List.mem_filter.mp he).1
  obtain ⟨-, hparameters⟩ := (hk.mapM_bound_updateValues hr).mp hb
  have hlength : parameters.length = t.mapping.updated.length + 1 := by simp [hparameters]
  have hn : parameters[t.mapping.updated.length]? = some (.integer (t.keyOf r)) := by
    simp [hparameters]
  have hq := Query.prepared_update hs.table_eq hs.readBackFrom.table (hs.isColumn_key hk)
    (fun e he => hs.readBackFrom.column e (hk.column_mem (hl e he)))
    (fun e he => hk.isCommaFree e (hk.column_mem (hl e he))) hu rfl
  rw [← hlength] at hq
  have hfilter := hs.filter_key hn
  by_cases hrow : ∃ row ∈ u.rows, row.id = t.keyOf r
  · obtain ⟨row, hrow, hid⟩ := hrow
    rw [← hid, hs.isSound.ordered.filter_eq_singleton hrow] at hfilter
    have hchanges : ((Sql.parameterChanges place t.mapping.updated).map fun p =>
        (p.1, Sql.Term.eval ⟨parameters, row, 0⟩ p.2)) =
        Sql.assigned place (t.boundValue r) t.mapping.updated := by
      rw [hparameters]
      exact Sql.eval_parameterChanges ..
    have hkey : (Sql.assigned place (t.boundValue r) t.mapping.updated).lookup (place key) = none :=
      Sql.lookup_assigned_of_ne fun e he => hs.readBackFrom.place_ne_key hk (hl e he)
    cases hupdate : u.update row (Sql.assigned place (t.boundValue r) t.mapping.updated) with
    | error e =>
      rw [← hchanges] at hupdate
      have he := Sql.Effect.ofPlan_update_error hs.table_eq hfilter hupdate
      exact ⟨_, _, _, u.rows, execute_of_fault hs.isPoisoned_eq hq hb he, hs.failed⟩
    | ok u' =>
      obtain ⟨hsound, rows, rfl⟩ := hs.isSound.update hrow hkey hupdate
      rw [← hchanges] at hupdate
      have he := Sql.Effect.ofPlan_update hs.table_eq hfilter hupdate
      exact ⟨_, _, _, rows, execute_of_effect hs.isPoisoned_eq hq hb he, hs.change hsound 1 _⟩
  · have hnil : u.rows.filter (fun row => decide (row.id = t.keyOf r)) = [] :=
      List.filter_eq_nil_iff.mpr fun row hr => by
        simpa using fun hid => hrow ⟨row, hr, hid⟩
    rw [hnil] at hfilter
    exact ⟨_, _, _, u.rows, execute_of_effect hs.isPoisoned_eq hq hb
      (Sql.Effect.ofPlan_update_nil hs.table_eq hfilter), hs.change hs.isSound 0 _⟩

/-- An update leaves a sound table, whether or not it succeeds. -/
theorem execute_update (hu : t.mapping.updated ≠ []) (hr : t.Admits r) :
    ∃ log h' result rows,
      execute (Query.update t.mapping.access) (t.updateValues r) h = ⟨log, h', result⟩ ∧
      Serves t tableName key place h' (u.withRows rows) := by
  cases hb : (t.updateValues r).mapM Argument.bound with
  | ok parameters => exact hs.execute_update_of_bound hk hu hr hb
  | error fault =>
    have hl : ∀ e ∈ t.mapping.updated, e ∈ t.mapping.selected := fun e he =>
      hk.column_mem (List.mem_filter.mp he).1
    have hlength : (t.updateValues r).length = t.mapping.updated.length + 1 := by
      rw [hk.updateValues_eq, List.length_map, List.length_append, List.length_singleton]
    have hq := Query.prepared_update hs.table_eq hs.readBackFrom.table (hs.isColumn_key hk)
      (fun e he => hs.readBackFrom.column e (hl e he)) (fun e he => hk.isCommaFree e (hl e he))
      hu rfl
    rw [← hlength] at hq
    exact ⟨_, _, _, u.rows, execute_of_conversion hs.isPoisoned_eq hq hb, hs⟩

theorem execute_delete {id : Int} (hid : Sql.minInteger ≤ id ∧ id ≤ Sql.maxInteger) :
    ∃ log h' changed rows,
      execute (Query.delete t.mapping.access) [.value (.integer id)] h = ⟨log, h', .ok changed⟩ ∧
      Serves t tableName key place h' (u.withRows rows) := by
  have hq : Prepared.only h.connection.database (Query.delete t.mapping.access).toList =
      .ok (some ⟨.delete tableName (some (Plan.keyCondition u (place key) 0)),
        [Value.integer id].length⟩) :=
    Query.prepared_delete hs.table_eq hs.readBackFrom.table (hs.isColumn_key hk)
  have hb : [Argument.value (.integer id)].mapM Argument.bound = .ok [.integer id] :=
    mapM_cons_eq_ok.mpr ⟨_, _, Argument.bound_integer hid, rfl, rfl⟩
  exact ⟨_, _, _, _,
    execute_of_effect hs.isPoisoned_eq hq hb (Sql.Effect.ofPlan_delete hs.table_eq),
    hs.change (hs.isSound.of_sublist List.filter_sublist) _ _⟩

end Serves

/-! ## Writing an object -/

section Write

variable (t tableName key place u)

/-- The run stored its object under a number, in a row that holds it. -/
structure StoredAs (id : Int) (run : Run State Unit) : Prop where
  result_eq : run.result = .ok ()
  keyOf_eq : t.keyOf run.state.2 = id
  admits : t.Admits run.state.2
  exists_row : ∃ row rows, row ∈ rows ∧ t.IsRowOf u place row run.state.2 ∧
    Serves t tableName key place run.state.1 (u.withRows rows)

/-- The run failed, and left its object and the table as they were. -/
structure Refused (r : Record) (run : Run State Unit) : Prop where
  result_ne : run.result ≠ .ok ()
  record_eq : run.state.2 = r
  serves : Serves t tableName key place run.state.1 u

end Write

namespace Serves

variable (hs : Serves t tableName key place h u) (hk : t.IsKeyed key) (hr : t.Admits r)

include hs hk

/-- Cells that are made without a key are those of the object with its new key. -/
theorem isRowOf_withKey (hr : t.Admits r) (hid : Sql.minInteger ≤ id ∧ id ≤ Sql.maxInteger)
    (hconverts : ∀ e ∈ t.mapping.columns, (t.argument r e).Converts) {replaces : Bool}
    {cells : List Value} (hc : u.cellsOf replaces id
      (u.newValues (Sql.assigned place (t.boundValue r) t.mapping.columns)) = .ok cells) :
    t.IsRowOf u place ⟨id, cells⟩ (t.withKey r id) where
  keyOf_eq := hk.keyOf_withKey hr id
  converts e he := by
    rw [hk.selected_eq] at he
    rcases List.mem_cons.mp he with rfl | he
    · exact ⟨_, hk.bound_key (hk.admits_withKey hr hid)⟩
    · rw [hk.argument_withKey he]
      exact hconverts e he
  cells_eq := by
    refine Table.cellsOf_again hs.readBackFrom.key_eq (fun i hi => ?_) hc
    have hbound : Sql.assigned place (t.boundValue r) t.mapping.columns =
        Sql.assigned place (t.boundValue (t.withKey r id)) t.mapping.columns :=
      List.map_congr_left fun e he => by rw [hk.boundValue_withKey he]
    have hne : (i == place key) = false := beq_eq_false_iff_ne.mpr hi
    rw [hbound, hk.selected_eq, Sql.assigned, Sql.assigned, List.map_cons, List.lookup_cons, hne]

include hr

/-- An object without a key is stored under the number that the table chooses. -/
theorem execute_new (replaces : Bool) :
    (∃ log h' e, execute (Query.write (Query.verbOf replaces) t.mapping.table
        t.mapping.insertFields) (t.insertValues r) h = ⟨log, h', .error e⟩ ∧
      Serves t tableName key place h' u) ∨
    ∃ row rows log h', row.id = u.freshId ∧ t.Admits (t.withKey r row.id) ∧ row ∈ rows ∧
      t.IsRowOf u place row (t.withKey r row.id) ∧
      execute (Query.write (Query.verbOf replaces) t.mapping.table
        t.mapping.insertFields) (t.insertValues r) h = ⟨log, h', .ok ⟨1, row.id⟩⟩ ∧
      Serves t tableName key place h' (u.withRows rows) := by
  obtain ⟨c, hkc, -, hfall⟩ := hs.readBackFrom.key_column
  have hkey : (Sql.assigned place (t.boundValue r) t.mapping.columns).lookup (place key) = none :=
    Sql.lookup_assigned_of_ne fun e he => hs.readBackFrom.place_ne_key hk he
  have hnew := Table.newId_of_none hs.readBackFrom.key_eq hkc hfall hkey
  have hchosen : ∀ id, u.newId (u.newValues (Sql.assigned place (t.boundValue r)
      t.mapping.columns)) = .ok id →
      id = u.freshId ∧ Sql.minInteger ≤ id ∧ id ≤ Sql.maxInteger := by
    intro id hid
    rw [hnew] at hid
    rcases Table.chosenId_cases fun row hrow =>
      (hs.isSound.fits row hrow).minInteger_le with ⟨hok, hrange⟩ | ⟨hfull, -⟩
    · rw [hok] at hid
      cases hid
      exact ⟨rfl, hrange⟩
    · rw [hfull] at hid
      cases hid
  rcases hs.execute_write hk (fun e => hk.column_mem) replaces fun id hid => (hchosen id hid).2
    with hfailed | ⟨id, cells, rows, log, h', hconverts, hid, hcells, hmem, hx, hs'⟩
  · exact .inl hfailed
  · obtain ⟨hfresh, hrange⟩ := hchosen id hid
    exact .inr ⟨⟨id, cells⟩, rows, log, h', hfresh, hk.admits_withKey hr hrange, hmem,
      hs.isRowOf_withKey hk hr hrange hconverts hcells, hx, hs'⟩

theorem add_cases : Refused t tableName key place u r (add t (h, r)) ∨
    StoredAs t tableName key place u u.freshId (add t (h, r)) := by
  have hquery : Query.insert t.mapping.access =
      Query.write (Query.verbOf false) t.mapping.table t.mapping.insertFields := rfl
  rcases hs.execute_new hk hr false with ⟨log, h', e, hx, hs'⟩ |
    ⟨row, rows, log, h', hid, ha, hmem, hrow, hx, hs'⟩
  · rw [← hquery] at hx
    have hadd : add t (h, r) = ⟨log, (h', r), .error e⟩ := by
      simp [add, theRecord, onFirst, bind, Action.bind, hx]
    rw [hadd]
    exact .inl ⟨by simp, rfl, hs'⟩
  · rw [← hquery] at hx
    have hadd : add t (h, r) = ⟨log, (h', t.withKey r row.id), .ok ()⟩ := by
      simp [add, theRecord, onFirst, setRecord, bind, Action.bind, hx]
    rw [hadd]
    exact .inr ⟨rfl, hrow.keyOf_eq.trans hid, ha, row, rows, hmem, hrow, hs'⟩

theorem replace_cases_of_new (h0 : t.keyOf r = 0) :
    Refused t tableName key place u r (replace t (h, r)) ∨
      StoredAs t tableName key place u u.freshId (replace t (h, r)) := by
  have hquery : Query.replace t.mapping.access.table t.mapping.access.insertFields =
      Query.write (Query.verbOf true) t.mapping.table t.mapping.insertFields := rfl
  rcases hs.execute_new hk hr true with ⟨log, h', e, hx, hs'⟩ |
    ⟨row, rows, log, h', hid, ha, hmem, hrow, hx, hs'⟩
  · rw [← hquery] at hx
    have hreplace : replace t (h, r) = ⟨log, (h', r), .error e⟩ := by
      simp [replace, theRecord, onFirst, bind, Action.bind, h0, hx]
    rw [hreplace]
    exact .inl ⟨by simp, rfl, hs'⟩
  · rw [← hquery] at hx
    have hreplace : replace t (h, r) = ⟨log, (h', t.withKey r row.id), .ok ()⟩ := by
      simp [replace, theRecord, onFirst, setRecord, bind, Action.bind, h0, hx]
    rw [hreplace]
    exact .inr ⟨rfl, hrow.keyOf_eq.trans hid, ha, row, rows, hmem, hrow, hs'⟩

/-- What a replacement binds for an object with a key. -/
theorem newId_of_key :
    u.newId (u.newValues (Sql.assigned place (t.boundValue r) t.mapping.selected)) =
      .ok (t.keyOf r) := by
  obtain ⟨c, hkc, -⟩ := hs.readBackFrom.key_column
  refine Table.newId_of_some hs.readBackFrom.key_eq hkc ?_
  rw [Sql.lookup_assigned (fun a ha b hb => hs.readBackFrom.eq_of_place_eq ha hb) hk.key_mem,
    hk.boundValue_key hr]

theorem replace_cases_of_key (h0 : t.keyOf r ≠ 0) :
    Refused t tableName key place u r (replace t (h, r)) ∨
      StoredAs t tableName key place u (t.keyOf r) (replace t (h, r)) := by
  have hquery : Query.replace t.mapping.access.table t.mapping.access.selectFields =
      Query.write (Query.verbOf true) t.mapping.table
        (RowMapping.joinColumns t.mapping.selected) := rfl
  have hid := hs.newId_of_key hk hr
  have hcolumn := hs.keyField_ne_empty hk
  have hargument := hk.map_argument_selected hr
  have hrange : ∀ id, u.newId (u.newValues (Sql.assigned place (t.boundValue r)
      t.mapping.selected)) = .ok id → Sql.minInteger ≤ id ∧ id ≤ Sql.maxInteger := by
    intro id hi
    rw [hid] at hi
    cases hi
    exact (hk.get_key hr).2
  rcases hs.execute_write hk (fun _ he => he) true hrange with ⟨log, h', e, hx, hs'⟩ |
    ⟨id, cells, rows, log, h', hconverts, hi, hcells, hmem, hx, hs'⟩
  · rw [← hquery, hargument] at hx
    have hreplace : replace t (h, r) = ⟨log, (h', r), .error e⟩ := by
      simp [replace, theRecord, onFirst, bind, Action.bind, h0, hcolumn, hx]
    rw [hreplace]
    exact .inl ⟨by simp, rfl, hs'⟩
  · rw [hid] at hi
    cases hi
    rw [← hquery, hargument] at hx
    have hreplace : replace t (h, r) = ⟨log, (h', r), .ok ()⟩ := by
      simp [replace, theRecord, onFirst, setRecord, bind, Action.bind, h0, hcolumn, hx,
        hk.withKey_keyOf hr]
    rw [hreplace]
    exact .inr ⟨rfl, rfl, hr, ⟨_, cells⟩, rows, hmem, ⟨rfl, hconverts, hcells⟩, hs'⟩

/-- A save leaves the object as it is and the table sound. -/
theorem save_cases : ∃ rows, (save t (h, r)).state.2 = r ∧
    Serves t tableName key place (save t (h, r)).state.1 (u.withRows rows) := by
  have hcolumn := hs.keyField_ne_empty hk
  by_cases hf : t.mapping.access.updateFields = ""
  · have hsave : save t (h, r) = ⟨[.saveSkipped t.mapping.table], (h, r), .ok ()⟩ := by
      simp [save, theRecord, note, bind, Action.bind, hcolumn, hf]
      rfl
    rw [hsave]
    exact ⟨u.rows, rfl, hs⟩
  · have hu : t.mapping.updated ≠ [] := by
      intro hnil
      refine hf ?_
      rw [RowMapping.access, RowMapping.updateFields, hnil]
      rfl
    obtain ⟨log, h', result, rows, hx, hs'⟩ := hs.execute_update hk hu hr
    refine ⟨rows, ?_⟩
    cases result <;>
      simp [save, theRecord, onFirst, bind, Action.bind, pure, Action.pure, hcolumn, hf, hx, hs']

theorem delete_cases : ∃ rows, (delete t (h, r)).state.2 = r ∧
    Serves t tableName key place (delete t (h, r)).state.1 (u.withRows rows) := by
  have hcolumn := hs.keyField_ne_empty hk
  obtain ⟨log, h', changed, rows, hx, hs'⟩ := hs.execute_delete hk (hk.get_key hr).2
  refine ⟨rows, ?_⟩
  by_cases hn : changed.rows = 0 <;>
    simp [delete, deleteById, theRecord, onFirst, fail, bind, Action.bind, pure, Action.pure,
      hcolumn, hx, hn, hs']

/-! ## An object and its row -/

section Own

variable (hmem : row ∈ u.rows) (hrow : t.IsRowOf u place row r) (h0 : t.keyOf r ≠ 0)

include hmem hrow h0

/-- An object with a key finds itself. -/
theorem findSelf_eq : ∃ log, findSelf t (h, r) = ⟨log, (h, r), .ok true⟩ := by
  have hcolumn := hs.keyField_ne_empty hk
  have hn : [Value.integer (t.keyOf r)][0]? = some (.integer (t.keyOf r)) := rfl
  have hb := Argument.bound_integer (hk.get_key hr).2
  have hx : h.connection.query (Query.selectByKey t.mapping.access)
      [.value (.integer (t.keyOf r))] = _ :=
    Query.query_selectByKey hs.table_eq hs.readBackFrom.table hs.readBackFrom.column
      hk.selected_ne_nil rfl hs.readBackFrom.key_eq (hs.isColumn_key hk) hb
  have hselected : u.rows.filter (fun row => decide (row.id = t.keyOf r)) = [row] := by
    rw [hrow.keyOf_eq]
    exact hs.isSound.ordered.filter_eq_singleton hmem
  rw [hs.filter_key hn, hselected] at hx
  have hscan := hs.readBackFrom.scan_row hk hr (hs.isSound.fits row hmem).hasKey hrow
  have hload := load_of_cons hs.isPoisoned_eq hx (hscan _)
  exact ⟨_, (findSelf_of_key hcolumn h0).trans hload⟩

/-- Replacing an object with a key by itself changes nothing. -/
theorem replace_eq : ∃ log h', replace t (h, r) = ⟨log, (h', r), .ok ()⟩ ∧
    Serves t tableName key place h' u := by
  have hquery : Query.replace t.mapping.access.table t.mapping.access.selectFields =
      Query.write (Query.verbOf true) t.mapping.table
        (RowMapping.joinColumns t.mapping.selected) := rfl
  have hcolumn := hs.keyField_ne_empty hk
  have hq := Query.prepared_write hs.table_eq hs.readBackFrom.table hs.readBackFrom.column
    hk.isCommaFree true
  have hid := hs.newId_of_key hk hr
  rw [hrow.keyOf_eq] at hid
  have he : Sql.Effect.ofPlan h.connection.database (t.mapping.selected.map (t.boundValue r))
      (.insert true tableName [Plan.sources u place t.mapping.selected]) = _ :=
    Sql.Effect.ofPlan_insert hs.table_eq true
  rw [if_pos rfl, hs.isSound.replace_of_mem hmem hid hrow.cells_eq] at he
  rw [← List.length_map (t.boundValue r)] at hq
  have hb := mapM_bound_eq_ok_iff.mpr ⟨hrow.converts, rfl⟩
  obtain ⟨log, h', hx, hs'⟩ : ∃ log h', execute (Query.write (Query.verbOf true) t.mapping.table
      (RowMapping.joinColumns t.mapping.selected)) (t.mapping.selected.map (t.argument r)) h =
      ⟨log, h', .ok ⟨1, row.id⟩⟩ ∧ Serves t tableName key place h' u :=
    ⟨_, _, execute_of_effect hs.isPoisoned_eq hq hb he, hs.change hs.isSound 1 row.id⟩
  rw [← hquery, hk.map_argument_selected hr] at hx
  have hown : t.withKey r row.id = r := by
    rw [← hrow.keyOf_eq]
    exact hk.withKey_keyOf hr
  refine ⟨log, h', ?_, hs'⟩
  simp [replace, theRecord, onFirst, setRecord, bind, Action.bind, h0, hcolumn, hx, hown]

end Own

end Serves

end Store

end TaggedRows
