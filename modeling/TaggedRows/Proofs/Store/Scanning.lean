import TaggedRows.Proofs.Accessor.Calls
import TaggedRows.Proofs.Record.Scanning
import TaggedRows.Proofs.Store.Refinement

/-!
# Rows read into the records of a type

What the operations that read make of the rows of a query, whichever rows they are.

- **Loads** (`LoadsFirst`): the first row is scanned into the object.
- **Lists** (`ListsAll`): every row is scanned into a new object.
- **Scans** (`scan_reads_first`): the key and the other stored fields of a type are read, up to the
  first cell that does not fit.
-/

namespace TaggedRows.Store

open TaggedRows.RecordType
open TaggedRows.Sql (Argument Connection Fault Table Value)

section Reading

variable [Sql.Engine] (t : RecordType)

/-- A load scans the first row of its query into the object. Without a row, the object is as it
was. -/
structure LoadsFirst : Prop where
  noRow : ∀ {h : Handle} {c : Connection} {query : String} {arguments : List Argument}
    {labels : List String} (r : Record), h.isPoisoned = false →
    h.connection.query query arguments = (c, .ok ⟨labels, []⟩) →
    load t query arguments (h, r) =
      ⟨[.loading query arguments.length], ({ h with connection := c }, r), .ok false⟩
  fits : ∀ {h : Handle} {c : Connection} {query : String} {arguments : List Argument}
    {labels : List String} {cells : List Value} {rows : List (List Value)} {r r' : Record},
    h.isPoisoned = false →
    h.connection.query query arguments = (c, .ok ⟨labels, cells :: rows⟩) →
    t.scan labels cells r = (r', .ok ()) →
    load t query arguments (h, r) =
      ⟨[.loading query arguments.length], ({ h with connection := c }, r'), .ok true⟩
  fault : ∀ {h : Handle} {c : Connection} {query : String} {arguments : List Argument}
    {labels : List String} {cells : List Value} {rows : List (List Value)} {r r' : Record}
    {fault : Fault}, h.isPoisoned = false →
    h.connection.query query arguments = (c, .ok ⟨labels, cells :: rows⟩) →
    t.scan labels cells r = (r', .error fault) →
    load t query arguments (h, r) =
      ⟨[.loading query arguments.length], ({ h with connection := c }, r'),
        .error (.database fault)⟩

/-- A list scans every row of its query into a new object, in order. It fails if one row does not
fit. -/
structure ListsAll : Prop where
  fits : ∀ {h : Handle} {c : Connection} {clause : String} {arguments : List Argument}
    {labels : List String} {rows : List (List Value)}, h.isPoisoned = false →
    h.connection.query (Query.select t.mapping.access clause) arguments =
      (c, .ok ⟨labels, rows⟩) →
    (∀ cells ∈ rows, (t.scan labels cells t.fresh).2 = .ok ()) →
    listQuery t clause arguments h =
      ⟨[.listing (Query.select t.mapping.access clause) arguments.length],
        { h with connection := c }, .ok (rows.map fun cells => (t.scan labels cells t.fresh).1)⟩
  fault : ∀ {h : Handle} {c : Connection} {clause : String} {arguments : List Argument}
    {labels : List String} {rows : List (List Value)} {cells : List Value} {fault : Fault},
    h.isPoisoned = false →
    h.connection.query (Query.select t.mapping.access clause) arguments =
      (c, .ok ⟨labels, rows⟩) →
    cells ∈ rows → (t.scan labels cells t.fresh).2 = .error fault →
    ∃ fault', listQuery t clause arguments h =
      ⟨[.listing (Query.select t.mapping.access clause) arguments.length],
        { h with connection := c }, .error (.database fault')⟩

theorem loadsFirst : LoadsFirst t :=
  ⟨fun _ => load_of_nil, load_of_cons, fun hp hx hr => load_of_fault hp hx hr⟩

theorem listsAll : ListsAll t where
  fits {h c clause arguments labels rows} hp hx hr := by
    have hrows : t.ofRows labels (rows.map id) =
        .ok (rows.map fun cells => (t.scan labels cells t.fresh).1) :=
      ofRows_eq labels fun cells hc => Prod.ext rfl (hr cells hc)
    rw [List.map_id] at hrows
    exact listQuery_eq hp hx hrows
  fault hp hx hc hr := by
    obtain ⟨fault', hrows⟩ := ofRows_eq_error hc (Prod.ext rfl hr)
    exact ⟨fault', listQuery_eq hp hx hrows⟩

variable {t}

/-- For every type with fields of different names, a scan reads the cells of a row into the key and
the other stored fields, up to the first cell that is missing or does not fit, and changes nothing
else. A load, and so the search for an object by its key, scans the first row into the object. A
list scans every row into a new object. -/
theorem scan_reads_first {name : String} {modules : List String}
    {fields : List (String × FieldKind × String)}
    (ht : ofTags? name modules fields = some t) (hn : (t.fields.map (·.1)).Nodup) :
    t.mapping.selected = keyFields (tagsOf fields) ++ plainFields (tagsOf fields) ∧
    (∀ args r, t.call? "member_pointers" args r =
      some (.slots (t.mapping.selected.map (·.field)), r)) ∧
    (∀ labels cells r, r.map (·.1) = t.fields.map (·.1) →
      t.Scanned labels cells t.mapping.selected r (t.scan labels cells r)) ∧
    LoadsFirst t ∧
    (∀ (h : Handle) (r : Record), t.hasKey = true → t.keyOf r ≠ 0 → findSelf t (h, r) =
      load t (Query.selectByKey t.mapping.access) [.value (.integer (t.keyOf r))] (h, r)) ∧
    (∀ args r, t.call? "new_obj" args r = some (.record t.fresh, r)) ∧
    t.fresh.map (·.1) = t.fields.map (·.1) ∧ ListsAll t := by
  refine ⟨selected_eq_of_ofTags? ht, fun args r => t.call?_memberPointers args r, ?_, loadsFirst t,
    ?_,
    fun args r => t.call?_newObj args r, t.map_fst_fresh, listsAll t⟩
  · intro labels cells r hr
    refine scanned_scanFields (nodup_fields_of_ofTags? ht hn) (fun e he => ?_) labels cells
    rw [hr]
    exact field_mem_of_ofTags? ht he
  · intro h r hk
    obtain ⟨key, hkey⟩ := Option.isSome_iff_exists.mp hk
    obtain ⟨hcolumn, hne⟩ := keyField_eq_of_ofTags? ht hkey
    exact findSelf_of_key (hcolumn ▸ hne)

end Reading

/-- Two notes; the second is due at no time that can be read. -/
def misdatedNotes : Table :=
  notesTable.withRows [⟨1, [.integer 1, .text "a", .integer 7, .null]⟩,
    ⟨2, [.integer 2, .text "b", .integer 7, .text "soon"]⟩]

/-- A handle to the misdated notes. -/
def misdatedHandle : Handle := .ofConnection (.toDatabase [misdatedNotes])

theorem table_misdatedHandle :
    misdatedHandle.connection.database.table "notes" = .ok misdatedNotes :=
  Sql.Database.table_singleton misdatedNotes

theorem shownLabels_misdatedNotes :
    Query.shownLabels misdatedNotes notesTable.placeOf noteType.mapping.selected =
      ["id", "title", "author", "due"] := by decide +kernel

/-- The columns of the notes are shown in the order of the table. -/
theorem shownCells_misdatedNotes : ∀ row ∈ misdatedNotes.rows,
    Query.shownCells notesTable.placeOf noteType.mapping.selected row = row.cells := by
  decide +kernel

/-- What is shown of all misdated notes. -/
theorem query_misdatedNotes :
    misdatedHandle.connection.query (Query.select noteType.mapping.access "") [] =
      (misdatedHandle.connection, .ok ⟨["id", "title", "author", "due"],
        misdatedNotes.rows.map Sql.Row.cells⟩) := by
  have hstored := suitsTable_note.storedIn.withRows misdatedNotes.rows
  rw [← shownLabels_misdatedNotes, ← List.map_congr_left shownCells_misdatedNotes]
  exact Query.query_select table_misdatedHandle hstored.table hstored.column (by decide) rfl
    hstored.uniqueColumns_eq

/-- What is shown of the misdated note with a key. -/
theorem query_misdatedNote {id : Int} (hid : Sql.minInteger ≤ id ∧ id ≤ Sql.maxInteger) :
    misdatedHandle.connection.query (Query.selectByKey noteType.mapping.access)
        [.value (.integer id)] =
      (misdatedHandle.connection, .ok ⟨["id", "title", "author", "due"],
        (misdatedNotes.rows.filter (·.id = id)).map Sql.Row.cells⟩) := by
  have hstored := suitsTable_note.storedIn.withRows misdatedNotes.rows
  have hcolumn : Query.IsColumn misdatedNotes noteType.mapping.access.keyField
      (notesTable.placeOf noteKey) := hstored.column noteKey (by decide)
  have hkeys : ∀ row ∈ misdatedNotes.rows,
      row.cells[notesTable.placeOf noteKey]? = some (.integer row.id) := by decide +kernel
  have hfilter : misdatedNotes.rows.filter (Sql.Term.holds (some (Sql.Plan.keyCondition
      misdatedNotes (notesTable.placeOf noteKey) 0)) [.integer id]) =
      misdatedNotes.rows.filter (·.id = id) := hstored.readBackFrom.filter_key rfl hkeys
  have hshown : (misdatedNotes.rows.filter (·.id = id)).map
      (Query.shownCells notesTable.placeOf noteType.mapping.selected) =
      (misdatedNotes.rows.filter (·.id = id)).map Sql.Row.cells :=
    List.map_congr_left fun row hrow => shownCells_misdatedNotes row (List.mem_of_mem_filter hrow)
  rw [← shownLabels_misdatedNotes, ← hshown, ← hfilter]
  exact Query.query_selectByKey table_misdatedHandle hstored.table hstored.column (by decide) rfl
    hstored.key_eq hcolumn (Argument.bound_integer hid)

/-- The second note is found by its key and read up to the time. The third note does not exist, and
its object stays as it is. The notes cannot be listed. -/
theorem scan_reads_first_misdated :
    findSelf noteType (misdatedHandle, noteOf 2 "x") =
      ⟨[.loading "select id,title,author,due from notes where id=?" 1],
        (misdatedHandle, noteOf 2 "b"), .error (.database (.misfit 3 "due" (.time .invalid)))⟩ ∧
    findSelf noteType (misdatedHandle, noteOf 3 "x") =
      ⟨[.loading "select id,title,author,due from notes where id=?" 1],
        (misdatedHandle, noteOf 3 "x"), .ok false⟩ ∧
    ∃ fault, listQuery noteType "" [] misdatedHandle =
      ⟨[.listing "select id,title,author,due from notes" 0], misdatedHandle,
        .error (.database fault)⟩ := by
  obtain ⟨-, -, -, hload, hself, -, -, hlist⟩ := scan_reads_first ofTags?_note (by decide)
  have hbyKey : Query.selectByKey noteType.mapping.access =
      "select id,title,author,due from notes where id=?" := by decide +kernel
  have hall : Query.select noteType.mapping.access "" =
      "select id,title,author,due from notes" := by decide +kernel
  refine ⟨?_, ?_, ?_⟩
  · rw [hself misdatedHandle (noteOf 2 "x") rfl (by decide), ← hbyKey]
    exact hload.fault rfl (query_misdatedNote (by decide)) (by decide +kernel)
  · rw [hself misdatedHandle (noteOf 3 "x") rfl (by decide), ← hbyKey]
    exact hload.noRow _ rfl (query_misdatedNote (by decide))
  · have hmisfit : (noteType.scan ["id", "title", "author", "due"]
        [.integer 2, .text "b", .integer 7, .text "soon"] noteType.fresh).2 =
        .error (.misfit 3 "due" (.time .invalid)) := by decide +kernel
    rw [← hall]
    exact hlist.fault rfl query_misdatedNotes (List.mem_cons_of_mem _ List.mem_cons_self) hmisfit

end TaggedRows.Store
