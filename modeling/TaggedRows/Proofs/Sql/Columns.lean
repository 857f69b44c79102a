import TaggedRows.Proofs.Sql.Constraints
import TaggedRows.Proofs.Sql.Failing

/-!
# Changes of rows

Insertions, updates and deletions change the rows of a table and nothing else of it. What a text of
one of them is prepared as depends on the columns of the tables alone, so it stays the same when the
text is run again and again.

- **Tables** (`Table.SameColumns`, `Database.SameColumns`): what such a change keeps.
- **Changes** (`Effect.sameColumns`): every one of them does.
- **Preparing** (`Prepared.only_congr`): the same text has the same plan afterwards.
-/

namespace TaggedRows.Sql

/-! ## Tables -/

/-- The tables differ in their rows at most. -/
def Table.SameColumns (t u : Table) : Prop := ∃ rows, u = t.withRows rows

namespace Table

variable {t u w : Table}

theorem SameColumns.refl (t : Table) : t.SameColumns t := ⟨t.rows, rfl⟩

theorem SameColumns.trans (h : t.SameColumns u) (h' : u.SameColumns w) : t.SameColumns w := by
  obtain ⟨rows, rfl⟩ := h
  obtain ⟨rows', rfl⟩ := h'
  exact ⟨rows', rfl⟩

theorem sameColumns_eraseConflicts (t : Table) (columns : List Nat) (cells : List Value) :
    t.SameColumns (t.eraseConflicts columns cells) := by
  rw [eraseConflicts]
  induction columns generalizing t with
  | nil => exact .refl t
  | cons i columns ih =>
    refine SameColumns.trans ?_ (ih _)
    dsimp only
    split
    · exact ⟨_, rfl⟩
    · exact .refl t

variable [Engine]

theorem sameColumns_of_insert {values : List Value} {id : Int}
    (h : t.insert values = .ok (u, id)) : t.SameColumns u := by
  obtain ⟨id', -, h⟩ := bind_eq_ok.mp h
  obtain ⟨cells, -, h⟩ := bind_eq_ok.mp h
  dsimp only at h
  split at h
  · cases h
  · obtain ⟨-, -, h⟩ := bind_eq_ok.mp h
    cases h
    exact ⟨_, rfl⟩

theorem sameColumns_of_replace {values : List Value} {id : Int}
    (h : t.replace values = .ok (u, id)) : t.SameColumns u := by
  obtain ⟨id', -, h⟩ := bind_eq_ok.mp h
  obtain ⟨cells, -, h⟩ := bind_eq_ok.mp h
  cases h
  have herase : t.SameColumns (t.erase id) := ⟨_, rfl⟩
  exact (herase.trans (sameColumns_eraseConflicts _ _ cells)).trans ⟨_, rfl⟩

theorem sameColumns_of_update {row : Row} {changes : List (Nat × Value)}
    (h : t.update row changes = .ok u) : t.SameColumns u := by
  obtain ⟨id, -, h⟩ := bind_eq_ok.mp h
  obtain ⟨cells, -, h⟩ := bind_eq_ok.mp h
  dsimp only at h
  split at h
  · cases h
  · obtain ⟨-, -, h⟩ := bind_eq_ok.mp h
    cases h
    exact ⟨_, rfl⟩

end Table

/-- Every name stands for tables that differ in their rows at most. -/
def Database.SameColumns (db db' : Database) : Prop :=
  ∀ name, Option.Rel Table.SameColumns (db.table? name) (db'.table? name)

namespace Database

variable {db db' : Database} {t u : Table} {tableName : String}

theorem SameColumns.refl (db : Database) : db.SameColumns db := by
  intro name
  cases db.table? name with
  | none => exact .none
  | some t => exact .some (.refl t)

/-- Other rows in a table keep the columns of all. -/
theorem sameColumns_setTable (h : db.table tableName = .ok t) (hu : t.SameColumns u) :
    db.SameColumns (db.setTable u) := by
  obtain ⟨hname, hfound⟩ := name_of_table h
  obtain ⟨rows, rfl⟩ := hu
  intro name
  rw [table?_setTable]
  split
  · next hsame =>
    have htable : db.table? name = some t := by
      rw [← table?_congr (show sameName t.name name = true from hsame), table?_congr hname, hfound]
    rw [htable]
    exact .some ⟨rows, rfl⟩
  · exact SameColumns.refl db name

end Database

/-! ## Changes -/

/-- The plan changes rows. -/
def Plan.IsChange : Plan → Prop
  | .insert .. | .update .. | .delete .. => True
  | _ => False

namespace Effect

variable [Engine] {parameters : List Value} {t u : Table}

theorem sameColumns_of_insertRows {replaces : Bool} {rows : List (List (Option Term))}
    {id id' : Option Int} (h : insertRows replaces parameters t id rows = .ok (u, id')) :
    t.SameColumns u := by
  induction rows generalizing t id with
  | nil =>
    cases h
    exact .refl _
  | cons sources rows ih =>
    rw [insertRows] at h
    cases replaces with
    | true =>
      obtain ⟨⟨w, n⟩, hput, h⟩ := bind_eq_ok.mp h
      exact (Table.sameColumns_of_replace hput).trans (ih h)
    | false =>
      obtain ⟨⟨w, n⟩, hput, h⟩ := bind_eq_ok.mp h
      exact (Table.sameColumns_of_insert hput).trans (ih h)

theorem sameColumns_of_updateRows {changes : List (Nat × Term)} {rows : List Row}
    (h : updateRows changes parameters t rows = .ok u) : t.SameColumns u := by
  induction rows generalizing t with
  | nil =>
    cases h
    exact .refl _
  | cons row rows ih =>
    rw [updateRows] at h
    obtain ⟨w, hput, h⟩ := bind_eq_ok.mp h
    exact (Table.sameColumns_of_update hput).trans (ih h)

/-- A change of rows keeps the columns of all tables. -/
theorem sameColumns {db : Database} {plan : Plan} {effect : Effect}
    (h : ofPlan db parameters plan = some (.ok effect)) : db.SameColumns effect.database := by
  cases plan with
  | insert replaces table rows =>
    obtain ⟨t, ht, h⟩ := bind_eq_ok.mp (Option.some.inj h)
    obtain ⟨⟨u, id⟩, hrows, h⟩ := bind_eq_ok.mp h
    cases h
    exact Database.sameColumns_setTable ht (sameColumns_of_insertRows hrows)
  | update table changes condition =>
    obtain ⟨t, ht, h⟩ := bind_eq_ok.mp (Option.some.inj h)
    obtain ⟨u, hrows, h⟩ := bind_eq_ok.mp h
    cases h
    exact Database.sameColumns_setTable ht (sameColumns_of_updateRows hrows)
  | delete table condition =>
    obtain ⟨t, ht, h⟩ := bind_eq_ok.mp (Option.some.inj h)
    cases h
    exact Database.sameColumns_setTable ht ⟨_, rfl⟩
  | _ => cases h

end Effect

/-! ## Preparing -/

/-- The statement changes rows. -/
def Statement.isChange : Statement → Bool
  | .insert .. | .update .. | .delete .. => true
  | _ => false

/-- The first statement of the text changes rows, if there is one. -/
def isChangeText (text : List Char) : Bool :=
  match Grammar.readStatement text with
  | .ok (some r) => r.statement.isChange
  | _ => true

namespace Plan

variable {db db' : Database} {text : List Char} {s : Statement}

theorem ofStatement_isChange (hs : s.isChange = true) {plan : Plan}
    (h : ofStatement db text s = .ok plan) : plan.IsChange := by
  cases s with
  | insert replaces table columns rows =>
    obtain ⟨t, -, h⟩ := bind_eq_ok.mp h
    -- The places are found first, whether or not the columns are listed, and then the sources.
    cases rows with
    | none =>
      cases columns <;> dsimp only at h <;> obtain ⟨places, -, h⟩ := bind_eq_ok.mp h <;>
        cases h <;> trivial
    | some rows =>
      cases columns <;> dsimp only at h <;> obtain ⟨places, -, h⟩ := bind_eq_ok.mp h <;>
        obtain ⟨sources, -, h⟩ := bind_eq_ok.mp h <;> cases h <;> trivial
  | update table changes condition =>
    obtain ⟨t, -, h⟩ := bind_eq_ok.mp h
    obtain ⟨places, -, h⟩ := bind_eq_ok.mp h
    obtain ⟨term, -, h⟩ := bind_eq_ok.mp h
    cases h
    trivial
  | delete table condition =>
    obtain ⟨t, -, h⟩ := bind_eq_ok.mp h
    obtain ⟨term, -, h⟩ := bind_eq_ok.mp h
    cases h
    trivial
  | _ => cases hs

/-- The plan of a change depends on the columns of the tables alone. -/
theorem ofStatement_congr (hdb : db.SameColumns db') (hs : s.isChange = true) :
    ofStatement db text s = ofStatement db' text s := by
  have htable : ∀ name, (∃ t rows, db.table name = .ok t ∧ db'.table name = .ok (t.withRows rows)) ∨
      db.table name = .error (.noSuchTable name) ∧ db'.table name = .error (.noSuchTable name) := by
    intro name
    have hname := hdb name
    rw [Database.table, Database.table]
    generalize db.table? name = found at hname
    generalize db'.table? name = found' at hname
    cases hname with
    | none => exact .inr ⟨rfl, rfl⟩
    | some h =>
      obtain ⟨rows, rfl⟩ := h
      exact .inl ⟨_, rows, rfl, rfl⟩
  cases s with
  | insert replaces table columns rows =>
    rw [ofStatement, ofStatement, ofInsert, ofInsert]
    obtain ⟨t, rows', ht, ht'⟩ | ⟨ht, ht'⟩ := htable table
    · rw [ht, ht']
      rfl
    · rw [ht, ht']
  | update table changes condition =>
    rw [ofStatement, ofStatement, ofUpdate, ofUpdate]
    obtain ⟨t, rows', ht, ht'⟩ | ⟨ht, ht'⟩ := htable table
    · rw [ht, ht']
      rfl
    · rw [ht, ht']
  | delete table condition =>
    rw [ofStatement, ofStatement, ofDelete, ofDelete]
    obtain ⟨t, rows', ht, ht'⟩ | ⟨ht, ht'⟩ := htable table
    · rw [ht, ht']
      rfl
    · rw [ht, ht']
  | _ => cases hs

end Plan

namespace Prepared

variable {db db' : Database} {text rest : List Char} {p : Option Prepared}

theorem first_eq_none_iff :
    first db text = .ok (none, rest) ↔ Grammar.readStatement text = .ok none ∧ rest = [] := by
  rw [first, bind_eq_ok]
  constructor
  · rintro ⟨reading, hread, h⟩
    cases reading with
    | none =>
      cases h
      exact ⟨hread, rfl⟩
    | some r =>
      obtain ⟨plan, -, h⟩ := bind_eq_ok.mp h
      cases h
  · rintro ⟨hread, rfl⟩
    exact ⟨none, hread, rfl⟩

/-- What is no statement for one database is none for any other. -/
theorem only_eq_none (h : only db text = .ok none) : only db' text = .ok none := by
  obtain ⟨rest, hfirst, -⟩ := only_eq_ok_iff.mp h
  obtain ⟨hread, rfl⟩ := first_eq_none_iff.mp hfirst
  exact only_eq_ok_iff.mpr ⟨[], first_eq_none_iff.mpr ⟨hread, rfl⟩, fun h => absurd rfl h.2⟩

/-- A text that changes rows is prepared alike for tables with the same columns. -/
theorem only_congr (hdb : db.SameColumns db') (htext : isChangeText text = true)
    (h : only db text = .ok p) : only db' text = .ok p := by
  obtain ⟨rest, hfirst, hlater⟩ := only_eq_ok_iff.mp h
  refine only_eq_ok_iff.mpr ⟨rest, ?_, fun hrest => only_eq_none (hlater hrest)⟩
  rw [first] at hfirst ⊢
  obtain ⟨reading, hread, hplan⟩ := bind_eq_ok.mp hfirst
  refine bind_eq_ok.mpr ⟨reading, hread, ?_⟩
  cases reading with
  | none => exact hplan
  | some r =>
    rw [isChangeText, hread] at htext
    dsimp only at hplan ⊢
    rwa [← Plan.ofStatement_congr hdb htext]

theorem isChange_of_only (htext : isChangeText text = true) {p : Prepared}
    (h : only db text = .ok (some p)) : p.plan.IsChange := by
  obtain ⟨rest, hfirst, -⟩ := only_eq_ok_iff.mp h
  obtain ⟨reading, hread, hprepared⟩ := bind_eq_ok.mp hfirst
  cases reading with
  | none => cases hprepared
  | some r =>
    rw [isChangeText, hread] at htext
    obtain ⟨plan, hplan, heq⟩ := bind_eq_ok.mp hprepared
    cases heq
    exact Plan.ofStatement_isChange htext hplan

end Prepared

end TaggedRows.Sql
