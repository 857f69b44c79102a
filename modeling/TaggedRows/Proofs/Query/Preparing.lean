import TaggedRows.Proofs.Query.Alignment
import TaggedRows.Proofs.Sql.Conditions

/-!
# The statements for a type are prepared

Each statement that is put together for a type is prepared in a database that has its table. The
plan works on the columns of the type in the order of the list that the statement was made from.
-/

namespace TaggedRows.Query

open TaggedRows.Sql
open TaggedRows.Sql.Grammar (IsEntity IsName joined statementReaders)

/-- The text names the column of the table at a place. -/
def IsColumn (u : Table) (text : String) (i : Nat) : Prop :=
  ∃ name, IsName text.toList name ∧ u.columnIndex? name = some i

variable {db : Database} {u : Table} {table tableName : String} {place : MappedField → Nat}
  {entries : List MappedField}

theorem exists_names {ι : Type} {text : ι → String} {place : ι → Nat} {l : List ι}
    (h : ∀ x ∈ l, IsColumn u (text x) (place x)) :
    ∃ name : ι → String, ∀ x ∈ l, IsName (text x).toList (name x) ∧
      u.columnIndex? (name x) = some (place x) := by
  classical
  unfold IsColumn at h
  refine ⟨fun x => if hx : x ∈ l then (h x hx).choose else "", fun x hx => ?_⟩
  dsimp only
  rw [dif_pos hx]
  exact (h x hx).choose_spec

theorem IsColumn.lt {text : String} {i : Nat} (h : IsColumn u text i) : i < u.columns.length := by
  obtain ⟨_, -, hi⟩ := h
  exact (List.findIdx?_eq_some_iff_getElem.mp hi).1

theorem IsColumn.ne_empty {text : String} {i : Nat} (h : IsColumn u text i) : text ≠ "" := by
  rintro rfl
  obtain ⟨_, ⟨_, ht, -⟩, -⟩ := h
  obtain ⟨c, body, hc, -⟩ := ht.exists_cons
  cases hc

/-- A joined list of columns as a text. -/
theorem toList_intercalate (f : MappedField → String) (entries : List MappedField) :
    (",".intercalate (entries.map f)).toList = joined (fun e => (f e).toList) entries := by
  induction entries with
  | nil => rfl
  | cons e entries ih =>
    cases entries with
    | nil => simp [joined]
    | cons e' entries =>
      rw [List.map_cons, List.map_cons, String.intercalate_cons_cons, String.toList_append,
        String.toList_append, ← List.map_cons, ih]
      simp [joined]

theorem columnsOf_joinColumns (hx : ∀ e ∈ entries, IsColumn u e.column (place e))
    (hf : ∀ e ∈ entries, ',' ∉ e.column.toList) :
    columnsOf (RowMapping.joinColumns entries) = entries.map MappedField.column := by
  refine columnsOf_intercalate (fun c hc => ?_) (fun c hc => ?_)
  · obtain ⟨e, he, rfl⟩ := List.mem_map.mp hc
    exact (hx e he).ne_empty
  · obtain ⟨e, he, rfl⟩ := List.mem_map.mp hc
    exact hf e he

/-! ## Writing -/

/-- What the readers of statements are told by a verb. -/
def verbOf (replaces : Bool) : String := if replaces then "replace" else "insert"

/-- A row that is written gets the bound values in the listed columns, if there are any. -/
theorem prepared_write (ht : db.table tableName = .ok u) (hn : IsEntity table.toList tableName)
    (hx : ∀ e ∈ entries, IsColumn u e.column (place e))
    (hf : ∀ e ∈ entries, ',' ∉ e.column.toList) (replaces : Bool) :
    Prepared.only db (write (verbOf replaces) table (RowMapping.joinColumns entries)).toList =
      .ok (some ⟨.insert replaces tableName [Plan.sources u place entries], entries.length⟩) := by
  obtain ⟨name, hname⟩ := exists_names hx
  have hcount : fieldCount (RowMapping.joinColumns entries) = entries.length := by
    rw [fieldCount, columnsOf_joinColumns hx hf, List.length_map]
  have hreader : (verbOf replaces, Grammar.insert replaces) ∈ statementReaders := by
    cases replaces <;> simp [statementReaders, verbOf]
  by_cases he : entries = []
  · subst he
    refine Prepared.only_of_reads ?_ hreader (Token.breaks_cons (by decide) _)
      (Grammar.insert_default_reads replaces hn) ?_
    · have hzero : fieldCount (RowMapping.joinColumns []) = 0 := hcount
      rw [write, if_pos hzero]
      simp
    · rintro _ rfl
      exact Plan.ofStatement_default ht place replaces
  · refine Prepared.only_of_reads ?_ hreader (Token.breaks_cons (by decide) _)
      (Grammar.insert_reads (t := fun e => e.column.toList) replaces hn he
        fun e hm => (hname e hm).1.isEntity) ?_
    · have hpos : fieldCount (RowMapping.joinColumns entries) ≠ 0 := by
        rw [hcount]
        exact mt List.length_eq_zero_iff.mp he
      have hmarks : placeholders entries.length =
          ",".intercalate (entries.map fun _ => "?") := by
        rw [placeholders, List.map_const']
      rw [write, if_neg hpos, hcount, hmarks]
      simp only [String.toList_append, toList_intercalate, RowMapping.joinColumns]
      simp
    · rintro _ rfl
      exact Plan.ofStatement_insert ht (fun e hm => (hname e hm).2) replaces

/-! ## Changing and deleting by key -/

section Keys

variable {k : Nat}

theorem prepared_update {a : TableAccess} (ht : db.table tableName = .ok u)
    (hn : IsEntity a.table.toList tableName) (hk : IsColumn u a.keyField k)
    (hx : ∀ e ∈ entries, IsColumn u e.column (place e))
    (hf : ∀ e ∈ entries, ',' ∉ e.column.toList) (he : entries ≠ [])
    (hu : a.updateFields = RowMapping.joinColumns entries) :
    Prepared.only db (update a).toList =
      .ok (some ⟨.update tableName (parameterChanges place entries)
        (some (Plan.keyCondition u k entries.length)), entries.length + 1⟩) := by
  obtain ⟨name, hname⟩ := exists_names hx
  obtain ⟨keyName, hkey, hki⟩ := hk
  refine Prepared.only_of_reads (w := "update") ?_ (by simp [statementReaders])
    (Token.breaks_cons (by decide) _)
    (Grammar.update_reads (t := fun e => e.column.toList) hn he
      (fun e hm => (hname e hm).1.isEntity) hkey) ?_
  · have hset : setParams a.updateFields =
        ",".intercalate (entries.map fun e => e.column ++ "=?") := by
      rw [hu, setParams, columnsOf_joinColumns hx hf, List.map_map]
      rfl
    rw [update, hset]
    simp only [String.toList_append, toList_intercalate]
    simp
  · rintro _ ⟨e, hc, rfl⟩
    exact Plan.ofStatement_update ht (fun e hm => (hname e hm).2) hki hc

/-- The marks for the values stand before the commas of a list of columns, whether they separate
columns or belong to one, and at the end. -/
theorem toList_setParams (he : entries ≠ []) (hne : RowMapping.joinColumns entries ≠ "") :
    (setParams (RowMapping.joinColumns entries)).toList =
      joined (fun e => Token.marked e.column.toList ++ ['=', '?']) entries := by
  have hmark : "=?".toList = ['=', '?'] := rfl
  have hpieces : (setParams (RowMapping.joinColumns entries)).toList =
      Token.marked (RowMapping.joinColumns entries).toList ++ ['=', '?'] := by
    rw [setParams, columnsOf, if_neg hne, Text.piecesOf, String.toList_intercalate, List.map_map,
      List.map_map]
    refine Eq.trans (congrArg _ (List.map_congr_left fun piece _ => ?_))
      (Text.intercalate_map_append_pieces ',' ['=', '?'] _)
    simp [hmark]
  rw [hpieces, RowMapping.joinColumns, toList_intercalate]
  obtain ⟨e, rest, rfl⟩ := List.exists_cons_of_ne_nil he
  clear he hne hpieces
  induction rest generalizing e with
  | nil => simp [joined]
  | cons next rest ih =>
    have hjoined (f : MappedField → List Char) :
        joined f (e :: next :: rest) = f e ++ ',' :: joined f (next :: rest) := by
      simp [joined]
    have hcomma (cs : List Char) :
        Token.marked (',' :: cs) = '=' :: '?' :: ',' :: Token.marked cs := rfl
    rw [hjoined, hjoined, Token.marked_append, hcomma, List.append_assoc, List.append_assoc, ← ih]
    rfl

/-- An update by key is refused, or it writes something to the rows with the key. With a comma in a
column it may write to another column than the one meant. -/
theorem prepared_update_cases {a : TableAccess} (ht : db.table tableName = .ok u)
    (hn : IsEntity a.table.toList tableName) (hk : IsColumn u a.keyField k)
    (hx : ∀ e ∈ entries, IsColumn u e.column (place e)) (he : entries ≠ [])
    (hu : a.updateFields = RowMapping.joinColumns entries) :
    (∃ fault, Prepared.only db (update a).toList = .error fault) ∨ ∃ changes,
      Prepared.only db (update a).toList =
        .ok (some ⟨.update tableName changes (some (Plan.keyCondition u k entries.length)),
          entries.length + 1⟩) := by
  obtain ⟨name, hname⟩ := exists_names hx
  obtain ⟨keyName, hkey, hki⟩ := hk
  have hmarked : ∀ e ∈ entries, ∃ name', IsEntity (Token.marked e.column.toList) name' :=
    fun e hm => (hname e hm).1.isEntity.marked
  choose! name' hname' using hmarked
  have hne : RowMapping.joinColumns entries ≠ "" := by
    refine mt (intercalate_eq_empty_iff fun c hc => ?_).mp (by simpa using he)
    obtain ⟨e, hm, rfl⟩ := List.mem_map.mp hc
    exact (hx e hm).ne_empty
  have htext : (update a).toList = "update".toList ++ ' ' :: (a.table.toList ++ ' ' ::
      ("set".toList ++ ' ' :: (joined (fun e => Token.marked e.column.toList ++ ['=', '?']) entries
        ++ ' ' :: ("where".toList ++ ' ' :: (a.keyField.toList ++ ['=', '?']))))) := by
    rw [update, hu]
    simp only [String.toList_append, toList_setParams he hne]
    simp
  refine (Prepared.only_cases (w := "update") htext (by simp [statementReaders])
    (Token.breaks_cons (by decide) _) (Grammar.update_reads hn he hname' hkey)).imp id ?_
  rintro ⟨_, plan, ⟨e, hc, rfl⟩, hplan, honly⟩
  obtain ⟨changes, rfl⟩ := Plan.exists_of_ofStatement_update ht hki hc hplan
  exact ⟨changes, honly⟩

theorem prepared_delete {a : TableAccess} (ht : db.table tableName = .ok u)
    (hn : IsEntity a.table.toList tableName) (hk : IsColumn u a.keyField k) :
    Prepared.only db (delete a).toList =
      .ok (some ⟨.delete tableName (some (Plan.keyCondition u k 0)), 1⟩) := by
  obtain ⟨keyName, hkey, hki⟩ := hk
  refine Prepared.only_of_reads (w := "delete") ?_ (by simp [statementReaders])
    (Token.breaks_cons (by decide) _) (Grammar.delete_reads hn hkey) ?_
  · rw [delete]
    simp
  · rintro _ ⟨e, hc, rfl⟩
    exact Plan.ofStatement_delete ht hki hc

end Keys

/-! ## Selecting -/

/-- The selection of the columns of a type, with a condition if there is one. -/
def selection (u : Table) (tableName : String) (place : MappedField → Nat)
    (entries : List MappedField) (condition : Option Term) : Selection :=
  ⟨some tableName, entries.map fun e => Plan.shown u (place e), condition, [], none, none, none⟩

theorem toList_intercalate_and {ι : Type} (text : ι → String) (x : ι) (l : List ι) :
    (" and ".intercalate ((x :: l).map fun y => text y ++ "=?")).toList =
      (text x).toList ++ '=' :: '?' :: Grammar.conjoined (fun y => (text y).toList) l := by
  induction l generalizing x with
  | nil => simp [Grammar.conjoined]
  | cons y l ih =>
    have hrest := ih y
    rw [List.map_cons] at hrest
    rw [List.map_cons, List.map_cons, String.intercalate_cons_cons, String.toList_append,
      String.toList_append, hrest]
    simp [Grammar.conjoined]

/-- The condition on a key is one of one column. -/
theorem selectByKey_eq (a : TableAccess) :
    selectByKey a = select a (conditionClause [a.keyField]) := by
  have hclause : conditionClause [a.keyField] = "where " ++ a.keyField ++ "=?" := by
    simp [conditionClause, String.append_assoc]
  rw [selectByKey, hclause]

section Selecting

variable {a : TableAccess} (ht : db.table tableName = .ok u)
  (hn : IsEntity a.table.toList tableName) (hx : ∀ e ∈ entries, IsColumn u e.column (place e))
  (he : entries ≠ []) (hs : a.selectFields = RowMapping.joinColumns entries)

include hs in
theorem toList_select {ι : Type} (text : ι → String) (l : List ι) :
    (select a (conditionClause (l.map text))).toList = "select".toList ++
      ' ' :: (joined (fun e => e.column.toList) entries ++ ' ' :: ("from".toList ++
        ' ' :: (a.table.toList ++ Grammar.conditionText (fun x => (text x).toList) l))) := by
  cases l with
  | nil =>
    have hclause : conditionClause (([] : List ι).map text) = "" := rfl
    rw [hclause, select, if_pos rfl, hs]
    simp only [String.toList_append, toList_intercalate, RowMapping.joinColumns]
    simp [Grammar.conditionText]
  | cons x l =>
    have hclause : conditionClause ((x :: l).map text) =
        "where " ++ " and ".intercalate ((x :: l).map fun y => text y ++ "=?") := by
      rw [conditionClause, if_neg (by simp), List.map_map]
      rfl
    have hne : "where " ++ " and ".intercalate ((x :: l).map fun y => text y ++ "=?") ≠ "" := by
      simp
    rw [hclause, select, if_neg hne, hs]
    simp only [String.toList_append, toList_intercalate, RowMapping.joinColumns,
      toList_intercalate_and]
    simp [Grammar.conditionText]

include ht hn hx he hs

/-- The rows that satisfy some comparisons are selected. -/
theorem prepared_find {ι : Type} {text : ι → String} {col : ι → Nat} {l : List ι}
    (hl : ∀ x ∈ l, IsColumn u (text x) (col x)) :
    Prepared.only db (select a (conditionClause (l.map text))).toList =
      .ok (some ⟨.select { selection u tableName place entries (Plan.conditions u col l 0) with
        scan := Plan.scanOf u place entries (Plan.conditions u col l 0) }, l.length⟩) := by
  obtain ⟨name, hname⟩ := exists_names hx
  obtain ⟨column, hcolumn⟩ := exists_names hl
  have hcondition := Grammar.conditionText_reads (n := 0) fun x hm => (hcolumn x hm).1
  rw [Nat.zero_add] at hcondition
  refine Prepared.only_of_reads (w := "select") (toList_select hs text l)
    (by simp [statementReaders]) (Token.breaks_cons (by decide) _)
    (Grammar.select_reads (t := fun e => e.column.toList) hn he (fun e hm => (hname e hm).1)
      Grammar.endsList_conditionText hcondition) ?_
  rintro _ ⟨items, condition, hi, hc, rfl⟩
  exact Plan.ofStatement_select ht (fun e hm => (hname e hm).2) hi
    fun scope hscope => Plan.resolve_conditions hscope (fun x hm => (hcolumn x hm).2) hc

theorem prepared_select (hu : u.uniqueColumns = []) :
    Prepared.only db (select a "").toList =
      .ok (some ⟨.select (selection u tableName place entries none), 0⟩) := by
  have hcolumns : ∀ c ∈ ([] : List String), IsColumn u (id c) ((fun _ => 0) c) := nofun
  refine (prepared_find ht hn hx he hs hcolumns).trans ?_
  rw [Plan.conditions, Plan.scanOf, Plan.scanColumn_eq_none hu]
  rfl

theorem prepared_selectByKey {k : Nat} (hu : u.key = some k) (hk : IsColumn u a.keyField k) :
    Prepared.only db (selectByKey a).toList =
      .ok (some ⟨.select (selection u tableName place entries (some (Plan.keyCondition u k 0))),
        1⟩) := by
  have hcolumns : ∀ c ∈ [a.keyField], IsColumn u (id c) ((fun _ => k) c) :=
    List.forall_mem_singleton.mpr hk
  rw [selectByKey_eq]
  refine (prepared_find ht hn hx he hs hcolumns).trans ?_
  rw [Plan.conditions, Plan.conjunction, Plan.scanOf, Plan.scanColumn_keyCondition hu]
  rfl

end Selecting

/-! ## Running selections -/

/-- What is shown of a row. -/
def shownCells (place : MappedField → Nat) (entries : List MappedField) (row : Row) : List Value :=
  entries.map fun e => row.cells.getD (place e) .null

/-- The names of what is shown. -/
def shownLabels (u : Table) (place : MappedField → Nat) (entries : List MappedField) :
    List String :=
  entries.map fun e => u.columnName (place e)

theorem labels_shown (u : Table) (place : MappedField → Nat) (entries : List MappedField) :
    (entries.map fun e => Plan.shown u (place e)).map Prod.snd = shownLabels u place entries := by
  rw [List.map_map]
  rfl

section Running

variable [Engine] {a : TableAccess} {c : Connection} (ht : c.database.table tableName = .ok u)
  (hn : IsEntity a.table.toList tableName) (hx : ∀ e ∈ entries, IsColumn u e.column (place e))
  (he : entries ≠ []) (hs : a.selectFields = RowMapping.joinColumns entries)

include ht hn hx he hs

theorem query_select (hu : u.uniqueColumns = []) : c.query (select a "") [] =
    (c, .ok ⟨shownLabels u place entries, u.rows.map (shownCells place entries)⟩) := by
  have hq : Prepared.only c.database (select a "").toList =
      .ok (some ⟨.select (selection u tableName place entries none), ([] : List Value).length⟩) :=
    prepared_select ht hn hx he hs hu
  have hall : u.rows.filter (Term.holds none []) = u.rows :=
    List.filter_eq_self.mpr fun _ _ => rfl
  rw [Connection.query_eq hq rfl (Selection.rows_shown ht _ _), hall, selection, labels_shown]
  rfl

theorem query_selectByKey {k : Nat} (hu : u.key = some k) (hk : IsColumn u a.keyField k)
    {argument : Argument} {v : Value} (hb : argument.bound = .ok v) :
    c.query (selectByKey a) [argument] =
      (c, .ok ⟨shownLabels u place entries,
        (u.rows.filter (Term.holds (some (Plan.keyCondition u k 0)) [v])).map
          (shownCells place entries)⟩) := by
  have hq : Prepared.only c.database (selectByKey a).toList =
      .ok (some ⟨.select (selection u tableName place entries (some (Plan.keyCondition u k 0))),
        [v].length⟩) := prepared_selectByKey ht hn hx he hs hu hk
  have hbound : [argument].mapM Argument.bound = .ok [v] :=
    mapM_cons_eq_ok.mpr ⟨v, [], hb, rfl, rfl⟩
  rw [Connection.query_eq hq hbound (Selection.rows_shown ht _ _), selection, labels_shown]
  rfl

section Finding

variable {ι : Type} {text : ι → String} {col : ι → Nat} {l : List ι}
  (hl : ∀ x ∈ l, IsColumn u (text x) (col x)) (argument : ι → Argument)

include hl

/-- The rows that have an equal cell for every value, in some order. -/
theorem query_find (hv : ∀ x ∈ l, (argument x).Converts) :
    ∃ visited : List Row, visited.Perm u.rows ∧
      c.query (select a (conditionClause (l.map text))) (l.map argument) =
        (c, .ok ⟨shownLabels u place entries,
          (visited.filter (Term.holds (Plan.conditions u col l 0)
            (l.map fun x => (argument x).converted))).map (shownCells place entries)⟩) := by
  have hq := prepared_find ht hn hx he hs hl
  rw [← List.length_map (f := fun x => (argument x).converted)] at hq
  have hbound : (l.map argument).mapM Argument.bound =
      .ok (l.map fun x => (argument x).converted) := by
    refine Argument.mapM_bound_eq_ok_iff.mpr ⟨List.forall_mem_map.mpr hv, ?_⟩
    rw [List.map_map]
    rfl
  refine ⟨Selection.visited ⟨some tableName, [], Plan.conditions u col l 0, [], none, none,
    Plan.scanOf u place entries (Plan.conditions u col l 0)⟩ u.rows, Selection.visited_perm _ _, ?_⟩
  rw [Connection.query_eq hq hbound (Selection.rows_visited ht _ _ _), selection, labels_shown]
  rfl

/-- A value that is not converted is not searched for. -/
theorem query_find_conversion {fault : Fault}
    (hb : (l.map argument).mapM Argument.bound = .error fault) :
    c.query (select a (conditionClause (l.map text))) (l.map argument) = (c, .error fault) := by
  have hq := prepared_find ht hn hx he hs hl
  rw [← List.length_map (f := argument)] at hq
  exact Connection.query_conversion hq hb

end Finding

end Running

end TaggedRows.Query
