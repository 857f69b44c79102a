import TaggedRows.Proofs.Record.Scanning
import TaggedRows.Proofs.Store.Refinement

/-!
# Objects found by the values of columns

A search compares columns with arguments, and all comparisons have to be true of the row that is
found. It is refused if an argument is not converted to a value.

- **Conditions** (`Sql.Table.Satisfies`): every named column equals the value of the argument paired
  with it.
- **Rows** (`RecordType.Converts`, `RecordType.IsOfRow`): a row has a value for every stored field,
  and is read into an object.
- **Searches** (`Answers`, `find_selects_conjunction`): nothing is found only if no row satisfies
  the conditions, and what is found is the object of a row that does.
-/

namespace TaggedRows

open TaggedRows.Sql (Argument Row Table Value)

variable {u : Table} {tableName : String} {place : MappedField → Nat} {row : Row}

/-! ## Conditions -/

section Conditions

variable [Sql.Engine]

/-- The row has an equal cell for every condition. -/
def Sql.Table.Satisfies (u : Table) (col : String → Nat) (conditions : List (String × Argument))
    (row : Row) : Prop :=
  ∀ p ∈ conditions, u.CellEquals (col p.1) p.2.converted row

instance (u : Table) (col : String → Nat) (conditions : List (String × Argument)) (row : Row) :
    Decidable (u.Satisfies col conditions row) :=
  inferInstanceAs (Decidable (∀ p ∈ conditions, u.CellEquals (col p.1) p.2.converted row))

theorem Sql.Table.satisfies_of_perm {col : String → Nat} {conditions conditions' :
    List (String × Argument)} (h : conditions'.Perm conditions) :
    u.Satisfies col conditions' row ↔ u.Satisfies col conditions row := by
  simp only [Satisfies, h.mem_iff]

end Conditions

/-! ## Rows -/

namespace RecordType

variable (t : RecordType)

/-- The table has the name that is in the mapping, and `place` says where the columns of the type
are. It may have other columns, keys and indices. -/
structure ReadFrom (u : Table) (tableName : String) (place : MappedField → Nat) : Prop where
  table : Sql.Grammar.IsEntity t.mapping.table.toList tableName
  column : ∀ e ∈ t.mapping.selected, Query.IsColumn u e.column (place e)

/-- Every stored field gets a value from the row. -/
def Converts (place : MappedField → Nat) (row : Row) : Prop :=
  ∀ e ∈ t.mapping.selected, ∃ v,
    (t.kindOf e.field).ofSql (row.cells.getD (place e) .null) = .ok v

instance (place : MappedField → Nat) (row : Row) : Decidable (t.Converts place row) :=
  decidable_of_iff (∀ e ∈ t.mapping.selected,
      ((t.kindOf e.field).ofSql (row.cells.getD (place e) .null)).isOk = true)
    (forall₂_congr fun _ _ => by
      rw [Except.isOk, Except.toBool.eq_def]
      split <;> simp_all)

/-- The stored fields of the object hold the cells of the row, and its other fields are as in a new
object. -/
structure IsOfRow (place : MappedField → Nat) (row : Row) (r : Record) : Prop where
  map_fst : r.map (·.1) = t.fields.map (·.1)
  stored : ∀ e ∈ t.mapping.selected,
    (t.kindOf e.field).ofSql (row.cells.getD (place e) .null) = .ok (r.get e.field)
  fresh : ∀ f, f ∉ t.mapping.selected.map (·.field) → r.get f = t.fresh.get f

variable {t}

theorem shownCells_getElem? {i : Nat} {e : MappedField} (he : t.mapping.selected[i]? = some e) :
    (Query.shownCells place t.mapping.selected row)[i]? =
      some (row.cells.getD (place e) .null) := by
  rw [Query.shownCells, List.getElem?_map, he]
  rfl

/-- A row with a value for every stored field is read into a new object. -/
theorem Converts.exists_scan (hn : (t.mapping.selected.map (·.field)).Nodup)
    (hf : ∀ e ∈ t.mapping.selected, e.field ∈ t.fields.map (·.1)) (h : t.Converts place row)
    (labels : List String) :
    ∃ r, t.scan labels (Query.shownCells place t.mapping.selected row) t.fresh = (r, .ok ()) ∧
      t.IsOfRow place row r := by
  rw [← map_fst_fresh] at hf
  obtain ⟨r, hr, hread⟩ := (scanned_scanFields hn hf labels _).of_fits fun i e he => by
    obtain ⟨v, hv⟩ := h e (List.mem_of_getElem? he)
    exact ⟨v, _, shownCells_getElem? he, hv⟩
  refine ⟨r, hr, hread.map_fst.trans t.map_fst_fresh, fun e he => ?_, fun f hne => ?_⟩
  · obtain ⟨i, hi, hie⟩ := List.getElem_of_mem he
    have hsome : t.mapping.selected[i]? = some e := List.getElem?_eq_some_iff.mpr ⟨hi, hie⟩
    obtain ⟨cell, hcell, hv⟩ := hread.fits i e hi hsome
    rw [shownCells_getElem? hsome] at hcell
    rwa [Option.some.inj hcell]
  · exact hread.unchanged f fun i e _ he hef =>
      hne (hef ▸ List.mem_map_of_mem (List.mem_of_getElem? he))

end RecordType

/-! ## Searches -/

namespace Store

open TaggedRows.RecordType
open TaggedRows.Store.Action

variable {t : RecordType} {h : Handle} {col : String → Nat} {conditions : List (String × Argument)}

section Searches

variable [Sql.Engine]

section Load

variable {query : String} {arguments : List Argument} {labels : List String} {cells : List Value}
  {rows : List (List Value)} {c : Sql.Connection} {r : Record} (hp : h.isPoisoned = false)

include hp

theorem loadFresh_of_nil (hx : h.connection.query query arguments = (c, .ok ⟨labels, []⟩)) :
    loadFresh t query arguments h =
      ⟨[.loading query arguments.length], { h with connection := c }, .ok none⟩ := by
  rw [loadFresh, load_of_nil hp hx]
  rfl

theorem loadFresh_of_cons
    (hx : h.connection.query query arguments = (c, .ok ⟨labels, cells :: rows⟩))
    (hr : t.scan labels cells t.fresh = (r, .ok ())) :
    loadFresh t query arguments h =
      ⟨[.loading query arguments.length], { h with connection := c }, .ok (some r)⟩ := by
  rw [loadFresh, load_of_cons hp hx hr]
  rfl

theorem loadFresh_of_error {fault : Sql.Fault}
    (hx : h.connection.query query arguments = (c, .error fault)) :
    loadFresh t query arguments h = ⟨[.loading query arguments.length], { h with connection := c },
      .error (.database fault)⟩ := by
  simp [loadFresh, load, onFirst, note, locked, bind, Action.bind, hp, hx]

end Load

/-- What a search answers: nothing if no row satisfies the conditions, and otherwise the object of
a row that does. -/
structure Answers (t : RecordType) (u : Table) (place : MappedField → Nat) (col : String → Nat)
    (conditions : List (String × Argument)) (result : Option Record) : Prop where
  none_iff : result = none ↔ ∀ row ∈ u.rows, ¬ u.Satisfies col conditions row
  of_some : ∀ r, result = some r →
    ∃ row ∈ u.rows, u.Satisfies col conditions row ∧ t.IsOfRow place row r

theorem Answers.none (hrows : ∀ row ∈ u.rows, ¬ u.Satisfies col conditions row) :
    Answers t u place col conditions none :=
  ⟨iff_of_true rfl hrows, nofun⟩

theorem Answers.some {r : Record} (hrow : row ∈ u.rows) (hs : u.Satisfies col conditions row)
    (hr : t.IsOfRow place row r) : Answers t u place col conditions (some r) :=
  ⟨iff_of_false nofun fun hrows => hrows row hrow hs,
    fun _ hr' => ⟨row, hrow, hs, Option.some.inj hr' ▸ hr⟩⟩

section Find

variable {name : String} {modules : List String} {fields : List (String × FieldKind × String)}
  (ht : ofTags? name modules fields = some t)
  (hu : h.connection.database.table tableName = .ok u) (hread : t.ReadFrom u tableName place)
  (hc : ∀ p ∈ conditions, Query.IsColumn u p.1 (col p.1))

include ht hu hread hc

/-- The rows that satisfy the conditions are looked at in some order. -/
theorem query_conditions (hv : ∀ p ∈ conditions, p.2.Converts) :
    ∃ (visited : List Row) (labels : List String),
      (∀ row, row ∈ visited ↔ row ∈ u.rows ∧ u.Satisfies col conditions row) ∧
      h.connection.query (Query.select t.mapping.access
          (Query.conditionClause (conditions.map Prod.fst))) (conditions.map Prod.snd) =
        (h.connection,
          .ok ⟨labels, visited.map (Query.shownCells place t.mapping.selected)⟩) := by
  obtain ⟨visited, hperm, hx⟩ := Query.query_find hu hread.table hread.column
    (selected_ne_nil_of_ofTags? ht) (rfl : t.mapping.access.selectFields = _) hc Prod.snd hv
  refine ⟨_, _, fun row => ?_, hx⟩
  rw [List.mem_filter, hperm.mem_iff, Sql.Term.holds_conditions fun p hp => (hc p hp).lt]
  rfl

theorem find_answers (hn : (t.fields.map (·.1)).Nodup) (hp : h.isPoisoned = false)
    (hv : ∀ p ∈ conditions, p.2.Converts)
    (hrows : ∀ row ∈ u.rows, u.Satisfies col conditions row → t.Converts place row) :
    ∃ log result, find t conditions h = ⟨log, h, .ok result⟩ ∧
      Answers t u place col conditions result := by
  obtain ⟨visited, labels, hmem, hx⟩ := query_conditions ht hu hread hc hv
  cases visited with
  | nil =>
    refine ⟨_, _, loadFresh_of_nil hp hx, .none fun row hrow hs => ?_⟩
    exact absurd ((hmem row).mpr ⟨hrow, hs⟩) List.not_mem_nil
  | cons row visited =>
    -- Only the first row is read, so the others need not be readable here.
    obtain ⟨hrow, hs⟩ := (hmem row).mp List.mem_cons_self
    obtain ⟨r, hr, hof⟩ := (hrows row hrow hs).exists_scan (nodup_fields_of_ofTags? ht hn)
      (fun _ he => field_mem_of_ofTags? ht he) labels
    exact ⟨_, _, loadFresh_of_cons hp hx hr, .some hrow hs hof⟩

/-- A search for something that is not converted is refused. -/
theorem find_of_not_converts (hp : h.isPoisoned = false) {p : String × Argument}
    (hmem : p ∈ conditions) (hnot : ¬ p.2.Converts) :
    ∃ log message,
      find t conditions h = ⟨log, h, .error (.database (.conversion message))⟩ := by
  cases hb : (conditions.map Prod.snd).mapM Argument.bound with
  | ok parameters =>
    have hall := (Argument.mapM_bound_eq_ok_iff.mp hb).1
    exact absurd (hall p.2 (List.mem_map_of_mem hmem)) hnot
  | error fault =>
    obtain ⟨message, rfl⟩ := Argument.exists_of_mapM_bound_eq_error hb
    have hx := Query.query_find_conversion hu hread.table hread.column
      (selected_ne_nil_of_ofTags? ht) (rfl : t.mapping.access.selectFields = _) hc Prod.snd hb
    exact ⟨_, message, loadFresh_of_error hp hx⟩

end Find

/-- The search by the column of the key is the one by the key. -/
theorem findBy_key {name : String} {modules : List String}
    {fields : List (String × FieldKind × String)} (ht : ofTags? name modules fields = some t)
    {key : MappedField} (hkey : t.mapping.key = some key) (k : Int) :
    findBy t key.column (.value (.integer k)) = findById t k := by
  obtain ⟨hcolumn, hne⟩ := keyField_eq_of_ofTags? ht hkey
  funext h
  -- Both searches send the same text.
  rw [findById, if_neg (hcolumn ▸ hne), Query.selectByKey_eq, hcolumn]
  rfl

end Searches

/-- Two notes that are not due. -/
def undatedNotes : Table :=
  notesTable.withRows [⟨1, [.integer 1, .text "a", .integer 7, .null]⟩,
    ⟨2, [.integer 2, .text "b", .integer 7, .null]⟩]

/-- A handle to the undated notes. -/
def undatedHandle : Handle := .ofConnection (.toDatabase [undatedNotes])

theorem table_undatedHandle :
    undatedHandle.connection.database.table "notes" = .ok undatedNotes :=
  Sql.Database.table_singleton undatedNotes

theorem readFrom_undatedNotes : noteType.ReadFrom undatedNotes "notes" notesTable.placeOf :=
  have hstored := suitsTable_note.storedIn.withRows undatedNotes.rows
  ⟨hstored.table, hstored.column⟩

/-- The place of a column of the notes. -/
def noteColumn (column : String) : Nat := notesTable.placeOf ⟨.plain "", column⟩

theorem isColumn_noteColumn {column : String}
    (hc : column ∈ noteType.mapping.selected.map MappedField.column) :
    Query.IsColumn undatedNotes column (noteColumn column) := by
  obtain ⟨e, he, rfl⟩ := List.mem_map.mp hc
  exact readFrom_undatedNotes.column e he

end Store

end TaggedRows
