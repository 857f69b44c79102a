import TaggedRows.Proofs.Store.Contents
import TaggedRows.Store.Records

/-!
# The operations of the store on the contents of a table

`Stands` says that the table behind a handle stands for some contents. Each operation on a type
with a key is described by what it makes of the contents and of the object.
-/

namespace TaggedRows.Store

open TaggedRows.Store.Action
open TaggedRows.Sql (Argument Table Value Prepared Plan)
open TaggedRows.RecordType

variable [Sql.Engine]

/-- The handle can be used, and its table stands for the contents. -/
structure Stands (t : RecordType) (tableName : String) (key : MappedField)
    (place : MappedField → Nat) (h : Handle) (u : Table) (m : Contents) : Prop where
  isPoisoned_eq : h.isPoisoned = false
  table_eq : h.connection.database.table tableName = .ok u
  storedIn : t.StoredIn u tableName key place
  represents : t.Represents u key place u.rows m

variable {t : RecordType} {tableName : String} {key : MappedField} {place : MappedField → Nat}
  {h : Handle} {m : Contents} {n : Nat} {r : Record} {u : Table}

/-! ## Statements behind the lock -/

section Execute

variable {query : String} {arguments : List Argument} {parameters : List Value} {plan : Plan}
  (hp : h.isPoisoned = false)
  (hq : Prepared.only h.connection.database query.toList = .ok (some ⟨plan, parameters.length⟩))
  (hb : arguments.mapM Argument.bound = .ok parameters)

include hp

/-- A statement that is not prepared changes nothing. -/
theorem execute_of_refusal {e : Sql.Fault}
    (hq : Prepared.only h.connection.database query.toList = .error e) :
    execute query arguments h =
      ⟨[.statement query arguments.length], h, .error (.database e)⟩ := by
  obtain ⟨c, isPoisoned⟩ := h
  obtain rfl : isPoisoned = false := hp
  have hx : c.execute query arguments = (c, .error e) := by rw [Sql.Connection.execute, hq]
  simp [execute, note, locked, bind, Action.bind, hx]

/-- A statement with an argument that is not converted changes nothing. -/
theorem execute_of_conversion {e : Sql.Fault}
    (hq : Prepared.only h.connection.database query.toList =
      .ok (some ⟨plan, arguments.length⟩))
    (hb : arguments.mapM Argument.bound = .error e) :
    execute query arguments h =
      ⟨[.statement query arguments.length], h, .error (.database e)⟩ := by
  obtain ⟨c, isPoisoned⟩ := h
  obtain rfl : isPoisoned = false := hp
  have hx := Sql.Connection.execute_conversion hq hb
  simp [execute, note, locked, bind, Action.bind, hx]

include hq hb

/-- A statement with a plan that changes the table. -/
theorem execute_of_effect {effect : Sql.Effect}
    (he : Sql.Effect.ofPlan h.connection.database parameters plan = some (.ok effect)) :
    execute query arguments h = ⟨[.statement query arguments.length],
      { h with connection := { h.connection with
        database := effect.database
        changes := effect.changes
        lastId := effect.lastId.getD h.connection.lastId } },
      .ok ⟨effect.changes, effect.lastId.getD h.connection.lastId⟩⟩ := by
  have hx := Sql.Connection.execute_eq hq hb he
  simp [execute, note, locked, bind, Action.bind, hp, hx]

theorem execute_of_fault {e : Sql.Fault}
    (he : Sql.Effect.ofPlan h.connection.database parameters plan = some (.error e)) :
    execute query arguments h = ⟨[.statement query arguments.length],
      { h with connection := { h.connection with changes := 0 } }, .error (.database e)⟩ := by
  have hx := Sql.Connection.execute_error hq hb he
  simp [execute, note, locked, bind, Action.bind, hp, hx]

end Execute

section Load

variable {query : String} {arguments : List Argument} {labels : List String}
  {cells : List Value} {rows : List (List Value)} {c : Sql.Connection} {r' : Record}
  (hp : h.isPoisoned = false)

include hp

omit [Sql.Engine] in
/-- A query may leave another connection behind the lock. -/
theorem locked_eq {α : Type} (use : Sql.Connection → Sql.Connection × Except Sql.Fault α) {a : α}
    (hx : use h.connection = (c, .ok a)) :
    locked use h = ⟨[], { h with connection := c }, .ok a⟩ := by
  simp only [locked, hp, Bool.false_eq_true, if_false, hx]

/-- Without a row the object stays as it is. -/
theorem load_of_nil (hx : h.connection.query query arguments = (c, .ok ⟨labels, []⟩)) :
    load t query arguments (h, r) =
      ⟨[.loading query arguments.length], ({ h with connection := c }, r), .ok false⟩ := by
  have hlock := locked_eq hp (fun c => c.query query arguments) hx
  simp [load, onFirst, note, bind, Action.bind, pure, Action.pure, hlock]

section

variable (hx : h.connection.query query arguments = (c, .ok ⟨labels, cells :: rows⟩))

include hx

/-- The first row is scanned into the object; the others are not looked at. -/
theorem load_of_cons (hr : t.scan labels cells r = (r', .ok ())) :
    load t query arguments (h, r) =
      ⟨[.loading query arguments.length], ({ h with connection := c }, r'), .ok true⟩ := by
  have hlock := locked_eq hp (fun c => c.query query arguments) hx
  simp [load, onFirst, note, bind, Action.bind, hlock, hr]

/-- The object keeps what has been read before a fault. -/
theorem load_of_fault {fault : Sql.Fault} (hr : t.scan labels cells r = (r', .error fault)) :
    load t query arguments (h, r) =
      ⟨[.loading query arguments.length], ({ h with connection := c }, r'),
        .error (.database fault)⟩ := by
  have hlock := locked_eq hp (fun c => c.query query arguments) hx
  simp [load, onFirst, note, bind, Action.bind, hlock, hr]

end

theorem listQuery_eq {clause : String} {result : Except Sql.Fault (List Record)}
    (hx : h.connection.query (Query.select t.mapping.access clause) arguments =
      (c, .ok ⟨labels, rows⟩))
    (hr : t.ofRows labels rows = result) :
    listQuery t clause arguments h =
      ⟨[.listing (Query.select t.mapping.access clause) arguments.length],
        { h with connection := c }, result.mapError .database⟩ := by
  subst hr
  cases hr : t.ofRows labels rows <;>
    simp [listQuery, note, locked, bind, Action.bind, hp, hx, hr, Except.mapError]

end Load

/-- An object with a key is loaded from the row with that key. -/
theorem findSelf_of_key (hk : t.mapping.access.keyField ≠ "") (h0 : t.keyOf r ≠ 0) :
    findSelf t (h, r) =
      load t (Query.selectByKey t.mapping.access) [.value (.integer (t.keyOf r))] (h, r) := by
  simp [findSelf, theRecord, bind, Action.bind, hk, h0]

/-- An object whose key is 0 is refused. -/
theorem findSelf_of_zero (hk : t.mapping.access.keyField ≠ "") (h0 : t.keyOf r = 0) :
    findSelf t (h, r) = ⟨[], (h, r), .error (.keyMissing t.mapping.table)⟩ := by
  simp [findSelf, theRecord, fail, bind, Action.bind, hk, h0]
  rfl

namespace Stands

variable (hs : Stands t tableName key place h u m) (hk : t.IsKeyed key)

include hs

/-- The handle after a change of the rows stands for what the new rows stand for. -/
theorem change {rows : List Sql.Row} {m' : Contents} (hr : t.Represents u key place rows m')
    (k : Nat) (id : Int) :
    Stands t tableName key place
      { h with connection := { h.connection with
        database := h.connection.database.setTable { u with rows := rows }
        changes := k
        lastId := id } }
      { u with rows := rows } m' where
  isPoisoned_eq := hs.isPoisoned_eq
  table_eq := Sql.Database.table_setTable hs.table_eq rfl
  storedIn := hs.storedIn.withRows rows
  represents := hr.withRows rows

/-- A failed change keeps the table. -/
theorem failed : Stands t tableName key place
    { h with connection := { h.connection with changes := 0 } } u m :=
  ⟨hs.isPoisoned_eq, hs.table_eq, hs.storedIn, hs.represents⟩

include hk in
theorem isColumn_key : Query.IsColumn u t.mapping.access.keyField (place key) := by
  rw [hk.keyField_eq]
  exact hs.storedIn.column key hk.key_mem

include hk in
/-- The type is not refused for want of a key. -/
theorem keyField_ne_empty : t.mapping.access.keyField ≠ "" := (hs.isColumn_key hk).ne_empty

/-! ## The row with a key -/

section Keyed

variable {n : Nat} {parameters : List Value} {id : Int}
  (hn : parameters[n]? = some (.integer id))

include hn

/-- A condition on the key selects the row with that number. -/
theorem holds_key : ∀ row ∈ u.rows,
    Sql.Term.holds (some (Plan.keyCondition u (place key) n)) parameters row =
      decide (row.id = id) := by
  intro row hrow
  exact hs.storedIn.readBackFrom.holds_key hn (hs.represents.isRow row hrow).hasKey

theorem filter_key_of_none (hm : m id = none) :
    u.rows.filter (Sql.Term.holds (some (Plan.keyCondition u (place key) n)) parameters) = [] := by
  rw [List.filter_congr (hs.holds_key hn)]
  refine List.filter_eq_nil_iff.mpr fun row hrow => ?_
  simpa using hs.represents.eq_none_iff.mp hm row hrow

theorem filter_key_of_row {row : Sql.Row} (hrow : row ∈ u.rows) (hid : row.id = id) :
    u.rows.filter (Sql.Term.holds (some (Plan.keyCondition u (place key) n)) parameters) =
      [row] := by
  rw [List.filter_congr (hs.holds_key hn), ← hid]
  exact hs.represents.ordered.filter_eq_singleton hrow

end Keyed

/-! ## Writing rows -/

section Write

variable {l : List MappedField} {id : Int}

include hk

/-- A row whose columns get the values of an object takes the place of the one with its number. -/
theorem execute_write (hr : t.Admits r) (hl : ∀ e ∈ l, e ∈ t.mapping.selected)
    (hc : ∀ e ∈ t.mapping.columns, e ∈ l) (replaces : Bool)
    (hid : u.newId (u.newValues (Sql.assigned place (t.boundValue r) l)) = .ok id)
    (hrange : Sql.minInteger ≤ id ∧ id ≤ Sql.maxInteger)
    (hnew : replaces = false → id = u.freshId) :
    ∃ log h' u', execute (Query.write (Query.verbOf replaces) t.mapping.table
        (RowMapping.joinColumns l)) (l.map (t.argument r)) h = ⟨log, h', .ok ⟨1, id⟩⟩ ∧
      Stands t tableName key place h' u' (m.set id (some (t.columnValues r))) := by
  obtain ⟨hp, ht, hst, hrep⟩ := hs
  obtain ⟨c, hkc, -, hfall⟩ := hst.key_column
  have hq := Query.prepared_write ht hst.table (fun e he => hst.column e (hl e he))
    (fun e he => hk.isCommaFree e (hl e he)) replaces
  have hlookup : ∀ e ∈ t.mapping.columns,
      (Sql.assigned place (t.boundValue r) l).lookup (place e) = some (t.boundValue r e) := by
    intro e he
    rw [hst.lookup_assigned hl (hk.column_mem he), if_pos (hc e he)]
  have haccepts : u.AcceptsNew (place key) (Sql.assigned place (t.boundValue r) l) :=
    hst.accepts_new hk hr hlookup fun i hi => Sql.lookup_assigned_of_ne fun e he => hi e (hl e he)
  have hrows : (if replaces then u.replace (u.newValues (Sql.assigned place (t.boundValue r) l))
      else u.insert (u.newValues (Sql.assigned place (t.boundValue r) l))) =
      .ok ((u.erase id).put
        ⟨id, u.newCells (place key) id (Sql.assigned place (t.boundValue r) l)⟩, id) := by
    cases replaces with
    | true => exact Table.replace_eq hst.key_eq hst.uniqueColumns_eq hid haccepts
    | false =>
      have hfresh := hnew rfl
      subst hfresh
      have herase : u.erase u.freshId = u := by
        have hrest : u.rows.filter (·.id ≠ u.freshId) = u.rows :=
          List.filter_eq_self.mpr fun row hrow => by
            simpa using Table.freshId_ne hrep.ordered row hrow
        rw [Table.erase, hrest]
      rw [herase]
      exact Table.insert_eq hst.key_eq hst.uniqueColumns_eq hrep.ordered hid haccepts
  have he : Sql.Effect.ofPlan h.connection.database (l.map (t.boundValue r))
      (.insert replaces tableName [Plan.sources u place l]) = _ :=
    Sql.Effect.ofPlan_insert ht replaces
  rw [hrows] at he
  rw [← List.length_map (t.boundValue r)] at hq
  have hput := hrep.erase_put (hst.isRow_new hrange) (hst.holds_new hk hr hlookup)
  have hb := mapM_bound_eq_ok_iff.mpr ⟨fun e he => hst.converts hk hr (hl e he), rfl⟩
  exact ⟨_, _, _, execute_of_effect hp hq hb he, change ⟨hp, ht, hst, hrep⟩ hput 1 id⟩

/-- A row that gets no number is not written. -/
theorem execute_write_of_fault (hr : t.Admits r) (hl : ∀ e ∈ l, e ∈ t.mapping.selected)
    (replaces : Bool) {e : Sql.Fault}
    (hid : u.newId (u.newValues (Sql.assigned place (t.boundValue r) l)) = .error e) :
    ∃ log h', execute (Query.write (Query.verbOf replaces) t.mapping.table
        (RowMapping.joinColumns l)) (l.map (t.argument r)) h =
        ⟨log, h', .error (.database e)⟩ ∧
      Stands t tableName key place h' u m := by
  have hq := Query.prepared_write hs.table_eq hs.storedIn.table
    (fun e he => hs.storedIn.column e (hl e he)) (fun e he => hk.isCommaFree e (hl e he)) replaces
  have he : Sql.Effect.ofPlan h.connection.database (l.map (t.boundValue r))
      (.insert replaces tableName [Plan.sources u place l]) = _ :=
    Sql.Effect.ofPlan_insert hs.table_eq replaces
  have hrows : (if replaces then u.replace (u.newValues (Sql.assigned place (t.boundValue r) l))
      else u.insert (u.newValues (Sql.assigned place (t.boundValue r) l))) = .error e := by
    cases replaces with
    | true => exact Table.replace_error hid
    | false => exact Table.insert_error hid
  rw [hrows] at he
  rw [← List.length_map (t.boundValue r)] at hq
  have hb := mapM_bound_eq_ok_iff.mpr ⟨fun e he => hs.storedIn.converts hk hr (hl e he), rfl⟩
  exact ⟨_, _, execute_of_fault hs.isPoisoned_eq hq hb he, hs.failed⟩

/-- A row without a number is new, or is refused when all positive numbers are taken. -/
theorem execute_new (hr : t.Admits r) (replaces : Bool) :
    (∃ id, m id = none ∧ (Sql.minInteger ≤ id ∧ id ≤ Sql.maxInteger) ∧ ∃ log h' u',
      execute (Query.write (Query.verbOf replaces) t.mapping.table t.mapping.insertFields)
        (t.insertValues r) h = ⟨log, h', .ok ⟨1, id⟩⟩ ∧
      Stands t tableName key place h' u' (m.set id (some (t.columnValues r)))) ∨
    ((∀ i, 1 ≤ i → i ≤ Sql.maxInteger → m i ≠ none) ∧ ∃ log h',
      execute (Query.write (Query.verbOf replaces) t.mapping.table t.mapping.insertFields)
        (t.insertValues r) h = ⟨log, h', .error (.database .full)⟩ ∧
      Stands t tableName key place h' u m) := by
  have hrep := hs.represents
  obtain ⟨c, hkc, -, hfall⟩ := hs.storedIn.key_column
  have hl : ∀ e ∈ t.mapping.columns, e ∈ t.mapping.selected := fun e => hk.column_mem
  have hkey : (Sql.assigned place (t.boundValue r) t.mapping.columns).lookup (place key) = none :=
    Sql.lookup_assigned_of_ne fun e he => hs.storedIn.readBackFrom.place_ne_key hk he
  have hnew := Table.newId_of_none hs.storedIn.key_eq hkc hfall hkey
  rcases Table.chosenId_cases fun row hrow => (hrep.isRow row hrow).minInteger_le with
    ⟨hid, hrange⟩ | ⟨hid, hfull⟩
  · refine .inl ⟨u.freshId, hrep.eq_none_iff.mpr (Table.freshId_ne hrep.ordered), hrange, ?_⟩
    exact hs.execute_write hk hr hl (fun e he => he) replaces (hnew.trans hid) hrange fun _ => rfl
  · refine .inr ⟨fun i h1 hi hm => ?_, ?_⟩
    · obtain ⟨row, hrow, he⟩ := hfull i h1 hi
      exact hrep.eq_none_iff.mp hm row hrow he
    · exact hs.execute_write_of_fault hk hr hl replaces (hnew.trans hid)

end Write

/-! ## Changing rows -/

section Update

variable (hu : t.mapping.updated ≠ [])

include hk hu

theorem updateFields_ne_empty : t.mapping.access.updateFields ≠ "" := by
  intro he
  have hx : ∀ e ∈ t.mapping.updated, Query.IsColumn u e.column (place e) := fun e he =>
    hs.storedIn.column e (hk.column_mem (RecordType.updated_subset he))
  have hcolumns := Query.columnsOf_joinColumns hx fun e he =>
    hk.isCommaFree e (hk.column_mem (RecordType.updated_subset he))
  have hempty : Query.columnsOf (RowMapping.joinColumns t.mapping.updated) = [] := by
    rw [show RowMapping.joinColumns t.mapping.updated = "" from he]
    rfl
  rw [hempty] at hcolumns
  exact hu (List.map_eq_nil_iff.mp hcolumns.symm)

theorem execute_update (hr : t.Admits r) :
    ∃ log h' u' changed, execute (Query.update t.mapping.access) (t.updateValues r) h =
        ⟨log, h', .ok changed⟩ ∧
      Stands t tableName key place h' u'
        (m.set (t.keyOf r) ((m (t.keyOf r)).map (merged t r))) := by
  have hst := hs.storedIn
  have hrep := hs.represents
  have hl : ∀ e ∈ t.mapping.updated, e ∈ t.mapping.selected := fun e he =>
    hk.column_mem (RecordType.updated_subset he)
  let parameters := t.mapping.updated.map (t.boundValue r) ++ [.integer (t.keyOf r)]
  have hb : (t.updateValues r).mapM Argument.bound = .ok parameters :=
    (hk.mapM_bound_updateValues hr).mpr ⟨fun e he => hst.converts hk hr (hl e he), rfl⟩
  have hn : parameters[t.mapping.updated.length]? = some (.integer (t.keyOf r)) := by
    simp [parameters]
  have hlength : parameters.length = t.mapping.updated.length + 1 := by simp [parameters]
  have hq := Query.prepared_update hs.table_eq hst.table (hs.isColumn_key hk)
    (fun e he => hst.column e (hl e he)) (fun e he => hk.isCommaFree e (hl e he)) hu rfl
  rw [← hlength] at hq
  cases hm : m (t.keyOf r) with
  | none =>
    refine ⟨_, _, u, _, execute_of_effect hs.isPoisoned_eq hq hb
      (Sql.Effect.ofPlan_update_nil hs.table_eq (hs.filter_key_of_none hn hm)), ?_⟩
    rw [Option.map_none, Contents.set_eq_self _ hm]
    exact hs.change hrep 0 _
  | some values =>
    obtain ⟨row, hrow, hid, hv⟩ := hrep.exists_holds hm
    have hchanges : ((Sql.parameterChanges place t.mapping.updated).map fun p =>
        (p.1, Sql.Term.eval ⟨parameters, row, 0⟩ p.2)) =
        Sql.assigned place (t.boundValue r) t.mapping.updated := Sql.eval_parameterChanges ..
    have hupdate : u.update row (Sql.assigned place (t.boundValue r) t.mapping.updated) = _ :=
      Table.update_eq hst.key_eq hst.uniqueColumns_eq
      (hst.lookup_updated_key hk (t.boundValue r)) (hst.lookup_reverse_updated hk (t.boundValue r))
      (hst.accepts_updated hk hr)
    rw [← hchanges] at hupdate
    have he := Sql.Effect.ofPlan_update hs.table_eq (hs.filter_key_of_row hn hrow hid) hupdate
    have hput := hrep.erase_put (hst.isRow_updated (hrep.isRow row hrow))
      (hst.holds_updated hk hr hv)
    rw [hchanges] at he
    have hset : m.set (t.keyOf r) ((some values).map (merged t r)) =
        m.set row.id (some (merged t r values)) := by rw [hid, Option.map_some]
    rw [hset]
    exact ⟨_, _, _, _, execute_of_effect hs.isPoisoned_eq hq hb he, hs.change hput 1 _⟩

end Update

include hk in
theorem execute_delete {id : Int} (hid : Sql.minInteger ≤ id ∧ id ≤ Sql.maxInteger) :
    ∃ log h' u' changed, execute (Query.delete t.mapping.access) [.value (.integer id)] h =
        ⟨log, h', .ok changed⟩ ∧ (changed.rows = 0 ↔ m id = none) ∧
      Stands t tableName key place h' u' (m.set id none) := by
  have hrep := hs.represents
  have hn : [Value.integer id][0]? = some (.integer id) := rfl
  have hq : Prepared.only h.connection.database (Query.delete t.mapping.access).toList =
      .ok (some ⟨.delete tableName (some (Plan.keyCondition u (place key) 0)),
        [Value.integer id].length⟩) :=
    Query.prepared_delete hs.table_eq hs.storedIn.table (hs.isColumn_key hk)
  have hremove : u.remove (Sql.Term.holds (some (Plan.keyCondition u (place key) 0))
      [.integer id]) = { u with rows := u.rows.filter (·.id ≠ id) } := by
    have hrows := List.filter_congr fun row hrow => congrArg not (hs.holds_key hn row hrow)
    rw [Table.remove, hrows]
    simp
  have hcount : u.rows.countP (Sql.Term.holds (some (Plan.keyCondition u (place key) 0))
      [.integer id]) = 0 ↔ m id = none := by
    rw [List.countP_eq_zero, hrep.eq_none_iff]
    refine forall₂_congr fun row hrow => ?_
    rw [hs.holds_key hn row hrow, decide_eq_true_eq]
  have he : Sql.Effect.ofPlan h.connection.database [.integer id]
      (.delete tableName (some (Plan.keyCondition u (place key) 0))) = _ :=
    Sql.Effect.ofPlan_delete hs.table_eq
  rw [hremove] at he
  have hb : [Argument.value (.integer id)].mapM Argument.bound = .ok [.integer id] :=
    mapM_cons_eq_ok.mpr ⟨_, _, Argument.bound_integer hid, rfl, rfl⟩
  exact ⟨_, _, _, _, execute_of_effect hs.isPoisoned_eq hq hb he, hcount,
    hs.change (hrep.erase id) _ _⟩

/-! ## Operations that write -/

section Operations

include hk

/-- Adding an object binds a new key to its values, and gives it that key. -/
theorem add_eq (hr : t.Admits r) :
    (∃ id, m id = none ∧ (Sql.minInteger ≤ id ∧ id ≤ Sql.maxInteger) ∧ ∃ log h' u',
      add t (h, r) = ⟨log, (h', t.withKey r id), .ok ()⟩ ∧
      Stands t tableName key place h' u' (m.set id (some (t.columnValues r)))) ∨
    ((∀ i, 1 ≤ i → i ≤ Sql.maxInteger → m i ≠ none) ∧ ∃ log h',
      add t (h, r) = ⟨log, (h', r), .error (.database .full)⟩ ∧
      Stands t tableName key place h' u m) := by
  have hquery : Query.insert t.mapping.access =
      Query.write (Query.verbOf false) t.mapping.table t.mapping.insertFields := rfl
  rcases hs.execute_new hk hr false with ⟨id, hm, hrange, log, h', u', hx, hs'⟩ |
    ⟨hfull, log, h', hx, hs'⟩
  · rw [← hquery] at hx
    refine .inl ⟨id, hm, hrange, log, h', u', ?_, hs'⟩
    simp [add, theRecord, onFirst, setRecord, bind, Action.bind, hx]
  · rw [← hquery] at hx
    refine .inr ⟨hfull, log, h', ?_, hs'⟩
    simp [add, theRecord, onFirst, bind, Action.bind, hx]

/-- An object without a key is added. -/
theorem replace_eq_of_new (hr : t.Admits r) (h0 : t.keyOf r = 0) :
    (∃ id, m id = none ∧ (Sql.minInteger ≤ id ∧ id ≤ Sql.maxInteger) ∧ ∃ log h' u',
      replace t (h, r) = ⟨log, (h', t.withKey r id), .ok ()⟩ ∧
      Stands t tableName key place h' u' (m.set id (some (t.columnValues r)))) ∨
    ((∀ i, 1 ≤ i → i ≤ Sql.maxInteger → m i ≠ none) ∧ ∃ log h',
      replace t (h, r) = ⟨log, (h', r), .error (.database .full)⟩ ∧
      Stands t tableName key place h' u m) := by
  have hquery : Query.replace t.mapping.access.table t.mapping.access.insertFields =
      Query.write (Query.verbOf true) t.mapping.table t.mapping.insertFields := rfl
  rcases hs.execute_new hk hr true with ⟨id, hm, hrange, log, h', u', hx, hs'⟩ |
    ⟨hfull, log, h', hx, hs'⟩
  · rw [← hquery] at hx
    refine .inl ⟨id, hm, hrange, log, h', u', ?_, hs'⟩
    simp [replace, theRecord, onFirst, setRecord, bind, Action.bind, h0, hx]
  · rw [← hquery] at hx
    refine .inr ⟨hfull, log, h', ?_, hs'⟩
    simp [replace, theRecord, onFirst, bind, Action.bind, h0, hx]

/-- An object with a key binds that key to its values. -/
theorem replace_eq_of_stored (hr : t.Admits r) (h0 : t.keyOf r ≠ 0) :
    ∃ log h' u', replace t (h, r) = ⟨log, (h', r), .ok ()⟩ ∧
      Stands t tableName key place h' u' (m.set (t.keyOf r) (some (t.columnValues r))) := by
  have hquery : Query.replace t.mapping.access.table t.mapping.access.selectFields =
      Query.write (Query.verbOf true) t.mapping.table (RowMapping.joinColumns t.mapping.selected) :=
    rfl
  obtain ⟨hget, hrange⟩ := hk.get_key hr
  obtain ⟨c, hkc, -⟩ := hs.storedIn.key_column
  have hbound := hk.boundValue_key hr
  have hlookup : (Sql.assigned place (t.boundValue r) t.mapping.selected).lookup (place key) =
      some (.integer (t.keyOf r)) := by
    rw [hs.storedIn.lookup_assigned (fun _ he => he) hk.key_mem, if_pos hk.key_mem, hbound]
  obtain ⟨log, h', u', hx, hs'⟩ := hs.execute_write hk hr (fun _ he => he)
    (fun _ => hk.column_mem) true (Table.newId_of_some hs.storedIn.key_eq hkc hlookup) hrange nofun
  rw [← hquery, hk.map_argument_selected hr] at hx
  refine ⟨log, h', u', ?_, hs'⟩
  have hcolumn : t.mapping.access.keyField ≠ "" := hs.keyField_ne_empty hk
  simp [replace, theRecord, onFirst, setRecord, bind, Action.bind, h0, hcolumn, hx,
    hk.withKey_keyOf hr]

/-- Nothing is saved when updates write no column. -/
theorem save_eq_of_fixed (r : Record) (hu : t.mapping.updated = []) :
    save t (h, r) = ⟨[.saveSkipped t.mapping.table], (h, r), .ok ()⟩ := by
  have hcolumn := hs.keyField_ne_empty hk
  have hfields : t.mapping.access.updateFields = "" := by
    rw [RowMapping.access, RowMapping.updateFields, hu]
    rfl
  simp [save, theRecord, note, bind, Action.bind, hcolumn, hfields]
  rfl

/-- A save writes the columns that updates write to the row with the key of the object, if there is
one. -/
theorem save_eq (hr : t.Admits r) (hu : t.mapping.updated ≠ []) :
    ∃ log h' u', save t (h, r) = ⟨log, (h', r), .ok ()⟩ ∧
      Stands t tableName key place h' u'
        (m.set (t.keyOf r) ((m (t.keyOf r)).map (merged t r))) := by
  have hcolumn := hs.keyField_ne_empty hk
  have hfields := hs.updateFields_ne_empty hk hu
  obtain ⟨log, h', u', changed, hx, hs'⟩ := hs.execute_update hk hu hr
  refine ⟨log, h', u', ?_, hs'⟩
  simp [save, theRecord, onFirst, bind, Action.bind, pure, Action.pure, hcolumn, hfields, hx]

/-- Deleting by a key unbinds it, and is refused when it is not bound. -/
theorem deleteById_eq {id : Int} (hid : Sql.minInteger ≤ id ∧ id ≤ Sql.maxInteger) :
    ∃ log h' u', deleteById t id h =
        ⟨log, h', if m id = none then .error (.notDeleted id) else .ok ()⟩ ∧
      Stands t tableName key place h' u' (m.set id none) := by
  have hcolumn := hs.keyField_ne_empty hk
  obtain ⟨log, h', u', changed, hx, hrows, hs'⟩ := hs.execute_delete hk hid
  refine ⟨log, h', u', ?_, hs'⟩
  by_cases hm : m id = none
  · simp [deleteById, fail, bind, Action.bind, hcolumn, hx, hrows, hm]
  · simp [deleteById, pure, Action.pure, bind, Action.bind, hcolumn, hx, hrows, hm]

theorem delete_eq (hr : t.Admits r) :
    ∃ log h' u', delete t (h, r) = ⟨log, (h', r),
        if m (t.keyOf r) = none then .error (.notDeleted (t.keyOf r)) else .ok ()⟩ ∧
      Stands t tableName key place h' u' (m.set (t.keyOf r) none) := by
  obtain ⟨log, h', u', hx, hs'⟩ := hs.deleteById_eq hk (hk.get_key hr).2
  refine ⟨log, h', u', ?_, hs'⟩
  simp [delete, theRecord, onFirst, bind, Action.bind, hx]

/-! ## Operations that read -/

/-- The row with a key is read into the object, if the key is bound. -/
theorem load_eq (r : Record) {id : Int} (hid : Sql.minInteger ≤ id ∧ id ≤ Sql.maxInteger) :
    ∃ log, load t (Query.selectByKey t.mapping.access) [.value (.integer id)] (h, r) =
      ⟨log, (h, ((m id).map (r.withRow key id)).getD r), .ok (m id).isSome⟩ := by
  have hst := hs.storedIn
  have hn : [Value.integer id][0]? = some (.integer id) := rfl
  have hx : h.connection.query (Query.selectByKey t.mapping.access) [.value (.integer id)] = _ :=
    Query.query_selectByKey hs.table_eq hst.table hst.column hk.selected_ne_nil rfl hst.key_eq
      (hs.isColumn_key hk) (Argument.bound_integer hid)
  cases hm : m id with
  | none =>
    rw [hs.filter_key_of_none hn hm] at hx
    exact ⟨_, load_of_nil hs.isPoisoned_eq hx⟩
  | some values =>
    obtain ⟨row, hrow, hrid, hv⟩ := hs.represents.exists_holds hm
    have hscan := hst.scan_row hk (hs.represents.isRow row hrow) hv
    rw [hs.filter_key_of_row hn hrow hrid] at hx
    rw [hrid] at hscan
    exact ⟨_, load_of_cons hs.isPoisoned_eq hx (hscan _ r)⟩

/-- The object with a key is the one whose values the key is bound to. -/
theorem findById_eq {id : Int} (hid : Sql.minInteger ≤ id ∧ id ≤ Sql.maxInteger) :
    ∃ log, findById t id h = ⟨log, h, .ok ((m id).map (t.fresh.withRow key id))⟩ := by
  have hcolumn := hs.keyField_ne_empty hk
  obtain ⟨log, hx⟩ := hs.load_eq hk t.fresh hid
  refine ⟨log, ?_⟩
  cases hm : m id <;> simp [findById, loadFresh, hcolumn, hx, hm]

theorem findSelf_eq_of_new (r : Record) (h0 : t.keyOf r = 0) :
    findSelf t (h, r) = ⟨[], (h, r), .error (.keyMissing t.mapping.table)⟩ :=
  findSelf_of_zero (hs.keyField_ne_empty hk) h0

theorem findSelf_eq_of_stored (hr : t.Admits r) (h0 : t.keyOf r ≠ 0) :
    ∃ log, findSelf t (h, r) = ⟨log,
      (h, ((m (t.keyOf r)).map (r.withRow key (t.keyOf r))).getD r),
      .ok (m (t.keyOf r)).isSome⟩ := by
  have hcolumn := hs.keyField_ne_empty hk
  obtain ⟨log, hx⟩ := hs.load_eq hk r (hk.get_key hr).2
  exact ⟨log, (findSelf_of_key hcolumn h0).trans hx⟩

/-- All objects are listed in the order of their keys. -/
theorem list_eq :
    ∃ log, ∃ ids : List Int, list t h = ⟨log, h,
        .ok (ids.map fun id => t.fresh.withRow key id ((m id).getD []))⟩ ∧
      ids.Pairwise (· < ·) ∧ ∀ id, id ∈ ids ↔ m id ≠ none := by
  have hst := hs.storedIn
  have hrep := hs.represents
  have hx : h.connection.query (Query.select t.mapping.access "") [] = _ :=
    Query.query_select hs.table_eq hst.table hst.column hk.selected_ne_nil rfl hst.uniqueColumns_eq
  have hread : ∀ labels, t.ofRows labels (u.rows.map fun row =>
      t.mapping.selected.map fun e => row.cells.getD (place e) .null) =
      .ok (u.rows.map fun row => t.fresh.withRow key row.id ((m row.id).getD [])) := by
    refine fun labels => ofRows_eq labels fun row hrow => ?_
    obtain ⟨values, hm, hv⟩ := hrep.holds row hrow
    rw [hm, Option.getD_some]
    exact hst.scan_row hk (hrep.isRow row hrow) hv labels t.fresh
  have hsorted : (u.rows.map Sql.Row.id).Pairwise (· < ·) := List.pairwise_map.mpr hrep.ordered
  have hlist := listQuery_eq hs.isPoisoned_eq hx (hread _)
  refine ⟨[.listing (Query.select t.mapping.access "") 0], u.rows.map Sql.Row.id, ?_, hsorted,
    fun id => ?_⟩
  · rw [List.map_map]
    exact hlist
  · rw [ne_eq, hrep.eq_none_iff]
    simp

end Operations

end Stands

end TaggedRows.Store
