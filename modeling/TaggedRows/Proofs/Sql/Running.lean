import TaggedRows.Proofs.Sql.Arguments
import TaggedRows.Proofs.Sql.Planning
import TaggedRows.Proofs.Sql.Rows

/-!
# Running the statements for a type

What the plans of `TaggedRows.Proofs.Sql.Planning` do to a table, and how a connection runs a text
that has such a plan.

- **Texts** (`Prepared.only_of_reads`, `Prepared.only_cases`): how a text that is read is prepared.
- **Conditions** (`holds_keyCondition`): a condition on the key holds of the row with that number.
- **Rows** (`Selection.rows_shown`): a selection shows the cells of the matching rows.
- **Changes** (`Effect.ofPlan_insert`, `Effect.ofPlan_update`, `Effect.ofPlan_delete`): a change of
  the table is put in its place in the database.
- **Connections** (`Connection.execute_eq`, `Connection.query_eq`): what becomes of a text whose
  arguments are converted, and of one with an argument that is not
  (`Connection.execute_conversion`, `Connection.query_conversion`).
-/

namespace TaggedRows.Sql

variable {ι : Type} {db : Database} {u u' : Table} {tableName : String} {place : ι → Nat}
  {v : ι → Value} {l : List ι}

theorem compare_integer (a b : Int) :
    Comparison.eq.holds (Value.compare (.integer a) (.integer b)) = decide (a = b) := by
  have h : Value.compare (.integer a) (.integer b) = .eq ↔ a = b := Int.compare_eq_eq
  simp only [Comparison.holds, h]

/-- Every row is visited once. -/
theorem Selection.visited_perm (s : Selection) (rs : List Row) : (s.visited rs).Perm rs := by
  rw [visited]
  split
  · exact .refl rs
  · exact List.mergeSort_perm ..

/-! ## Tables -/

theorem sameName_congr {a b : String} (h : sameName a b = true) (c : String) :
    sameName a c = sameName b c := by
  have he : a.toLower = b.toLower := of_decide_eq_true h
  rw [sameName, sameName, he]

/-- The only table of a database is found by its name. -/
theorem Database.table_singleton (u : Table) : Database.table [u] u.name = .ok u := by
  have hfind : Database.table? [u] u.name = some u := by simp [table?, sameName]
  rw [table, hfind]

/-- A table is found again where it has been put. -/
theorem Database.table_setTable (h : db.table tableName = .ok u) (hn : u'.name = u.name) :
    Database.table (db.setTable u') tableName = .ok u' := by
  have hf : List.find? (sameName ·.name tableName) db = some u := by
    unfold Database.table table? at h
    split at h
    · next hf => rw [hf, Except.ok.inj h]
    · cases h
  have hname : sameName u.name tableName = true :=
    List.find?_some (p := fun t : Table => sameName t.name tableName) hf
  have hsame : sameName u.name u'.name = true := by rw [hn]; exact decide_eq_true rfl
  have hp : ∀ t : Table, sameName (if sameName t.name u'.name then u' else t).name tableName =
      sameName t.name tableName := by
    intro t
    split
    · next ht => exact (sameName_congr ht tableName).symm
    · rfl
  have hfind : List.find? (sameName ·.name tableName) (db.setTable u') = some u' := by
    have hcomp : ((sameName ·.name tableName) ∘ fun t : Table =>
        if sameName t.name u'.name then u' else t) = (sameName ·.name tableName) := funext hp
    rw [Database.setTable, List.find?_map, hcomp, hf, Option.map_some, if_pos hsame]
  unfold Database.table table?
  rw [hfind]

/-! ## Texts -/

/-- A text that is read as one statement is prepared as the plan of that statement. -/
theorem Prepared.only_eq {text : List Char} {s : Statement} {n : Nat} {plan : Plan}
    (hr : Grammar.readStatement text = .ok (some ⟨s, n, []⟩))
    (hp : Plan.ofStatement db text s = .ok plan) : only db text = .ok (some ⟨plan, n⟩) := by
  have hf : first db text = .ok (some ⟨plan, n⟩, []) := by
    refine bind_eq_ok.mpr ⟨_, hr, ?_⟩
    exact bind_eq_ok.mpr ⟨plan, hp, rfl⟩
  rw [only]
  refine bind_eq_ok.mpr ⟨_, hf, ?_⟩
  dsimp only
  rw [if_neg fun h => h.2 rfl]
  rfl

/-- A text that a reader takes up to its end is prepared as the plan of what it gives. -/
theorem Prepared.only_of_reads {text rest : List Char} {w : String}
    {p : Grammar.Reader Statement} {n : Nat} {S : Statement → Prop} {plan : Plan}
    (ht : text = w.toList ++ rest) (hw : (w, p) ∈ Grammar.statementReaders)
    (hr : Token.Breaks rest) (hp : Grammar.Reads p rest 0 S [] n)
    (hs : ∀ s, S s → Plan.ofStatement db text s = .ok plan) :
    only db text = .ok (some ⟨plan, n⟩) := by
  obtain ⟨s, hread, hss⟩ := Grammar.readStatement_of_reads hw hr hp
  rw [← ht] at hread
  exact only_eq hread (hs s hss)

/-- A text that a reader takes up to its end is refused or prepared as the plan of what it gives. -/
theorem Prepared.only_cases {text rest : List Char} {w : String}
    {p : Grammar.Reader Statement} {n : Nat} {S : Statement → Prop}
    (ht : text = w.toList ++ rest) (hw : (w, p) ∈ Grammar.statementReaders)
    (hr : Token.Breaks rest) (hp : Grammar.Reads p rest 0 S [] n) :
    (∃ fault, only db text = .error fault) ∨ ∃ s plan, S s ∧
      Plan.ofStatement db text s = .ok plan ∧ only db text = .ok (some ⟨plan, n⟩) := by
  obtain ⟨s, hread, hs⟩ := Grammar.readStatement_of_reads hw hr hp
  rw [← ht] at hread
  cases hplan : Plan.ofStatement db text s with
  | ok plan => exact .inr ⟨s, plan, hs, hplan, only_eq hread hplan⟩
  | error fault =>
    have hf : first db text = .error fault := by
      rw [first, hread]
      change (Plan.ofStatement db text s >>= fun plan => _) = _
      rw [hplan]
      rfl
    refine .inl ⟨fault, ?_⟩
    rw [only, hf]
    rfl

variable [Engine]

/-! ## Conditions -/

theorem truth_ofBool (b : Bool) : (Value.ofBool b).truth? = some b := by
  cases b <;> rfl

theorem holds_keyCondition {k n : Nat} {column : Column} {parameters : List Value} {id : Int}
    {row : Row} (hc : u.columns[k]? = some column) (ha : column.affinity = .integer)
    (hp : parameters[n]? = some (.integer id)) (hr : row.HasKey k) :
    Term.holds (some (Plan.keyCondition u k n)) parameters row = decide (row.id = id) := by
  have hcell : row.cells.getD k .null = .integer row.id := by
    rw [List.getD_eq_getElem?_getD, hr, Option.getD_some]
  have hparam : parameters.getD n .null = .integer id := by
    rw [List.getD_eq_getElem?_getD, hp, Option.getD_some]
  have heval : Term.eval ⟨parameters, row, 0⟩ (Plan.keyCondition u k n) =
      .ofBool (decide (row.id = id)) := by
    rw [Plan.keyCondition, Term.eval, Term.eval, Term.eval, hc, hparam]
    simp only [hcell, Option.map_some, Option.getD_some, ha]
    rw [← compare_integer]
    rfl
  simp [Term.holds, heval, truth_ofBool]

/-! ## Rows -/

namespace Selection

/-- A selection of columns shows their cells in the rows that satisfy its condition, in the order in
which they are visited. -/
theorem rows_visited (ht : db.table tableName = .ok u) (condition : Option Term)
    (parameters : List Value) (scan : Option Nat) :
    rows ⟨some tableName, l.map fun x => Plan.shown u (place x), condition, [], none, none, scan⟩
      parameters db =
      .ok (((visited ⟨some tableName, [], condition, [], none, none, scan⟩ u.rows).filter
        (Term.holds condition parameters)).map fun row =>
          l.map fun x => row.cells.getD (place x) .null) := by
  have hcounts : (l.map fun x => Plan.shown u (place x)).any (fun p => p.1.counts) = false := by
    simp [Plan.shown, Expr.counts]
  unfold rows
  refine bind_eq_ok.mpr ⟨u.rows, by rw [ht]; rfl, ?_⟩
  refine bind_eq_ok.mpr ⟨none, rfl, ?_⟩
  refine bind_eq_ok.mpr ⟨none, rfl, ?_⟩
  have hproject : ∀ rs : List Row, project ⟨some tableName, l.map fun x => Plan.shown u (place x),
      condition, [], none, none, scan⟩ parameters rs =
      rs.map fun row => l.map fun x => row.cells.getD (place x) .null := by
    intro rs
    unfold project
    simp only [hcounts, Bool.false_eq_true, if_false, List.map_map]
    rfl
  rw [hproject]
  rfl

/-- Without an index the rows are shown in the order of their numbers. -/
theorem rows_shown (ht : db.table tableName = .ok u) (condition : Option Term)
    (parameters : List Value) :
    rows ⟨some tableName, l.map fun x => Plan.shown u (place x), condition, [], none, none, none⟩
      parameters db =
      .ok ((u.rows.filter (Term.holds condition parameters)).map fun row =>
        l.map fun x => row.cells.getD (place x) .null) :=
  rows_visited ht condition parameters none

end Selection

/-! ## Changes -/

namespace Effect

/-- A row whose columns have parameters gets the values that are bound for them. -/
theorem values_sources (u : Table) (place : ι → Nat) (v : ι → Value) (l : List ι) :
    ((u.columns.zip (Plan.sources u place l)).map fun (column, source) =>
      match source with
      | some e => Term.eval ⟨l.map v, ⟨0, []⟩, 0⟩ e
      | none => column.fallback) = u.newValues (assigned place v l) := by
  have heval := eval_parameterChanges place v l [] ⟨0, []⟩ 0
  rw [List.append_nil] at heval
  rw [Plan.sources, List.zip_map_right, List.map_map, Table.newValues, ← heval,
    List.zipIdx_eq_zip_range', List.range_eq_range']
  refine List.map_congr_left fun p _ => ?_
  obtain ⟨column, i⟩ := p
  rw [lookup_map_snd]
  dsimp only [Function.comp, Prod.map]
  cases (parameterChanges place l).lookup i <;> rfl

variable {changes : List (Nat × Term)} {condition : Option Term} {parameters : List Value}

/-- A new row is put in by the table, which may refuse it. -/
theorem ofPlan_insert (ht : db.table tableName = .ok u) (replaces : Bool) :
    ofPlan db (l.map v) (.insert replaces tableName [Plan.sources u place l]) =
      some ((if replaces then u.replace (u.newValues (assigned place v l))
        else u.insert (u.newValues (assigned place v l))).map fun p =>
          ⟨db.setTable p.1, 1, some p.2⟩) := by
  have hv := values_sources u place v l
  have hrows : insertRows replaces (l.map v) u none [Plan.sources u place l] =
      (if replaces then u.replace (u.newValues (assigned place v l))
        else u.insert (u.newValues (assigned place v l))).map fun p => (p.1, some p.2) := by
    rw [insertRows]
    cases replaces with
    | true =>
      refine (congrArg (fun w => u.replace w >>= fun p => .ok (p.1, some p.2)) hv).trans ?_
      cases u.replace (u.newValues (assigned place v l)) <;> rfl
    | false =>
      refine (congrArg (fun w => u.insert w >>= fun p => .ok (p.1, some p.2)) hv).trans ?_
      cases u.insert (u.newValues (assigned place v l)) <;> rfl
  rw [ofPlan, ht]
  refine congrArg some ((congrArg (fun x : Except Fault (Table × Option Int) =>
    x >>= fun p => .ok (Effect.mk (db.setTable p.1) 1 p.2)) hrows).trans ?_)
  cases (if replaces then u.replace (u.newValues (assigned place v l))
    else u.insert (u.newValues (assigned place v l))) <;> rfl

/-- An update of the rows that satisfy its condition changes at most one row, if at most one
satisfies it. -/
theorem ofPlan_update (ht : db.table tableName = .ok u) {row : Row}
    (hf : u.rows.filter (Term.holds condition parameters) = [row])
    (hr : u.update row (changes.map fun p => (p.1, Term.eval ⟨parameters, row, 0⟩ p.2)) =
      .ok u') :
    ofPlan db parameters (.update tableName changes condition) =
      some (.ok ⟨db.setTable u', 1, none⟩) := by
  refine congrArg some (bind_eq_ok.mpr ⟨u, ht, bind_eq_ok.mpr ⟨u', ?_, by rw [hf]; rfl⟩⟩)
  rw [hf, updateRows]
  exact bind_eq_ok.mpr ⟨u', hr, rfl⟩

theorem ofPlan_update_error (ht : db.table tableName = .ok u) {row : Row} {e : Fault}
    (hf : u.rows.filter (Term.holds condition parameters) = [row])
    (hr : u.update row (changes.map fun p => (p.1, Term.eval ⟨parameters, row, 0⟩ p.2)) =
      .error e) :
    ofPlan db parameters (.update tableName changes condition) = some (.error e) := by
  rw [ofPlan, ht]
  refine congrArg some ?_
  dsimp only [bind, Except.bind]
  rw [hf, updateRows, hr]
  rfl

theorem ofPlan_update_nil (ht : db.table tableName = .ok u)
    (hf : u.rows.filter (Term.holds condition parameters) = []) :
    ofPlan db parameters (.update tableName changes condition) =
      some (.ok ⟨db.setTable u, 0, none⟩) := by
  refine congrArg some (bind_eq_ok.mpr ⟨u, ht, bind_eq_ok.mpr ⟨u, ?_, by rw [hf]; rfl⟩⟩)
  rw [hf, updateRows]

theorem ofPlan_delete (ht : db.table tableName = .ok u) :
    ofPlan db parameters (.delete tableName condition) =
      some (.ok ⟨db.setTable (u.remove (Term.holds condition parameters)),
        u.rows.countP (Term.holds condition parameters), none⟩) :=
  congrArg some (bind_eq_ok.mpr ⟨u, ht, rfl⟩)

end Effect

/-! ## Connections -/

namespace Connection

variable {c : Connection} {text : String} {arguments : List Argument} {parameters : List Value}
  {fault : Fault}

theorem run_eq {plan : Plan} (hb : arguments.mapM Argument.bound = .ok parameters) :
    c.run (some ⟨plan, parameters.length⟩) arguments = c.step parameters plan := by
  rw [run, Option.map_some, Option.getD_some, Argument.boundFor_length hb]

theorem run_conversion {plan : Plan} (hb : arguments.mapM Argument.bound = .error fault) :
    c.run (some ⟨plan, arguments.length⟩) arguments = (c, .error fault) := by
  rw [run, Option.map_some, Option.getD_some, Argument.boundFor_eq_error hb]

theorem execute_eq {plan : Plan} {effect : Effect}
    (hp : Prepared.only c.database text.toList = .ok (some ⟨plan, parameters.length⟩))
    (hb : arguments.mapM Argument.bound = .ok parameters)
    (he : Effect.ofPlan c.database parameters plan = some (.ok effect)) :
    c.execute text arguments =
      ({ c with
        database := effect.database
        changes := effect.changes
        lastId := effect.lastId.getD c.lastId }, .ok effect.changes) := by
  rw [execute, hp]
  simp [runChange, run_eq hb, step, he]

/-- A change that fails leaves the tables as they are. -/
theorem execute_error {plan : Plan}
    (hp : Prepared.only c.database text.toList = .ok (some ⟨plan, parameters.length⟩))
    (hb : arguments.mapM Argument.bound = .ok parameters)
    (he : Effect.ofPlan c.database parameters plan = some (.error fault)) :
    c.execute text arguments = ({ c with changes := 0 }, .error fault) := by
  rw [execute, hp]
  simp [runChange, run_eq hb, step, he]

/-- Without a value for every argument nothing is run. -/
theorem execute_conversion {plan : Plan}
    (hp : Prepared.only c.database text.toList = .ok (some ⟨plan, arguments.length⟩))
    (hb : arguments.mapM Argument.bound = .error fault) :
    c.execute text arguments = (c, .error fault) := by
  rw [execute, hp]
  simp [runChange, run_conversion hb]

theorem query_eq {s : Selection} {rows : List (List Value)}
    (hp : Prepared.only c.database text.toList = .ok (some ⟨.select s, parameters.length⟩))
    (hb : arguments.mapM Argument.bound = .ok parameters)
    (hr : s.rows parameters c.database = .ok rows) :
    c.query text arguments = (c, .ok ⟨s.items.map Prod.snd, rows⟩) := by
  rw [query, hp]
  simp [run_eq hb, step, Effect.ofPlan, hr, labelsOf, Except.map]

theorem query_conversion {plan : Plan}
    (hp : Prepared.only c.database text.toList = .ok (some ⟨plan, arguments.length⟩))
    (hb : arguments.mapM Argument.bound = .error fault) :
    c.query text arguments = (c, .error fault) := by
  rw [query, hp]
  simp [run_conversion hb, Except.map]

end Connection

end TaggedRows.Sql
