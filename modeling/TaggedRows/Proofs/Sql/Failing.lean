import TaggedRows.Proofs.Query.Preparing

/-!
# Changes that do not happen

A statement that fails leaves every table as it is, and so does a deletion that concerns no row.

- **Tables** (`Database.SameTables`, `Connection.Keeps`): what is left as it is.
- **Failures** (`Connection.keeps_of_execute_error`): whatever the text of the statement is.
- **Deletions** (`Prepared.exists_of_only_delete`): a text that begins as a deletion is one,
  whatever names are put into it, or it is refused. So it keeps the tables if it deletes nothing
  (`Connection.keeps_of_execute_delete`).
-/

namespace TaggedRows.Sql

/-! ## Tables -/

namespace Database

variable {db : Database} {u : Table} {tableName : String}

theorem table?_congr {a b : String} (h : sameName a b = true) (db : Database) :
    db.table? a = db.table? b := by
  have hsame : (fun t : Table => sameName t.name a) = (sameName ·.name b) := by
    funext t
    rw [sameName, sameName, of_decide_eq_true h]
  rw [table?, table?, hsame]

/-- What the names stand for after a table has been put in the place of the one of its name. -/
theorem table?_setTable (db : Database) (u : Table) (name : String) :
    Database.table? (db.setTable u) name =
      if sameName u.name name then (db.table? name).map fun _ => u else db.table? name := by
  have hput : ((sameName ·.name name) ∘ fun t : Table => if sameName t.name u.name then u else t) =
      (sameName ·.name name) := by
    funext t
    by_cases ht : sameName t.name u.name = true
    · simp [ht, sameName_congr ht]
    · simp [ht]
  rw [setTable, table?, List.find?_map, hput, table?]
  cases hf : List.find? (sameName ·.name name) db with
  | none => simp
  | some t =>
    have hname : sameName t.name name = true :=
      List.find?_some (p := fun t : Table => sameName t.name name) hf
    by_cases hu : sameName u.name name = true
    · have htu : sameName t.name u.name = true :=
        decide_eq_true ((of_decide_eq_true hname).trans (of_decide_eq_true hu).symm)
      simp [hu, htu]
    · have htu : ¬ sameName t.name u.name = true := fun htu => hu (sameName_congr htu name ▸ hname)
      simp [hu, htu]

theorem name_of_table (h : db.table tableName = .ok u) :
    sameName u.name tableName = true ∧ db.table? tableName = some u := by
  unfold table at h
  split at h
  · next hf =>
    cases h
    exact ⟨List.find?_some (p := fun t : Table => sameName t.name tableName) hf, hf⟩
  · cases h

/-- Every name stands for the same table in both databases. -/
def SameTables (db db' : Database) : Prop := ∀ name, db'.table? name = db.table? name

/-- A table that is put back in its place changes nothing. -/
theorem sameTables_setTable (h : db.table tableName = .ok u) : db.SameTables (db.setTable u) := by
  obtain ⟨hname, hfound⟩ := name_of_table h
  intro name
  rw [table?_setTable]
  split
  · next hsame =>
    rw [← table?_congr hsame, table?_congr hname, hfound, Option.map_some]
  · rfl

end Database

namespace Connection

/-- The tables are as they were, and so are those that an open transaction goes back to. -/
structure Keeps (c c' : Connection) : Prop where
  tables : c.database.SameTables c'.database
  saved_eq : c'.saved = c.saved

variable {c c' : Connection} {parameters : List Value} {text : String} {e : Fault}

theorem Keeps.refl (c : Connection) : c.Keeps c := ⟨fun _ => rfl, rfl⟩

theorem Keeps.of_eq (hdb : c'.database = c.database) (hsaved : c'.saved = c.saved) : c.Keeps c' :=
  ⟨fun _ => by rw [hdb], hsaved⟩

/-! ## Failures -/

variable [Engine] {arguments : List Argument}

theorem step_of_error {plan : Plan}
    (h : Effect.ofPlan c.database parameters plan = some (.error e)) :
    c.step parameters plan = ({ c with changes := 0 }, .error e) := by
  unfold step
  rw [h]

theorem step_of_ok {plan : Plan} {effect : Effect}
    (h : Effect.ofPlan c.database parameters plan = some (.ok effect)) :
    c.step parameters plan =
      ({ c with
        database := effect.database
        changes := effect.changes
        lastId := effect.lastId.getD c.lastId }, .ok []) := by
  unfold step
  rw [h]

section

variable {r : Except Fault (List (List Value))}

/-- A plan that fails, or that gives rows, changes nothing but the number of changes. -/
theorem keeps_of_step {plan : Plan} (h : c.step parameters plan = (c', r)) (hr : r ≠ .ok []) :
    c.Keeps c' := by
  unfold step at h
  split at h
  · cases h
    exact .of_eq rfl rfl
  · cases h
    exact absurd rfl hr
  · split at h
    · obtain rfl : c = c' := congrArg Prod.fst h
      exact .refl c
    · cases h
      exact absurd rfl hr
    · cases h
      exact absurd rfl hr
    · split at h
      · cases h
        exact .refl c
      · cases h
        exact absurd rfl hr
    · split at h
      · cases h
        exact absurd rfl hr
      · cases h
        exact .refl c
    · split at h
      · cases h
        exact absurd rfl hr
      · cases h
        exact .refl c
    · cases h
      exact .refl c

theorem keeps_of_run {p : Option Prepared} (h : c.run p arguments = (c', r)) (hr : r ≠ .ok []) :
    c.Keeps c' := by
  unfold run at h
  split at h
  · cases h
    exact .refl c
  · split at h
    · cases h
      exact .refl c
    · exact keeps_of_step h hr

end

theorem keeps_of_runChange_error {p : Option Prepared}
    (h : c.runChange p arguments = (c', .error e)) : c.Keeps c' := by
  unfold runChange at h
  split at h
  · next hr =>
    cases h
    exact keeps_of_run hr (by simp)
  · cases h
  · next hr =>
    cases h
    exact keeps_of_run hr (by simp)

/-- A statement that fails keeps the tables, whatever it says. -/
theorem keeps_of_execute_error (h : c.execute text arguments = (c', .error e)) : c.Keeps c' := by
  unfold execute at h
  split at h
  · cases h
    exact .refl c
  · exact keeps_of_runChange_error h

end Connection

/-! ## Deletions -/

namespace Grammar

variable {α β : Type} {p : Reader α} {f : α → Reader β} {input input' : Input} {b : β}

theorem Reader.bind_eq_ok : (p >>= f) input = .ok (b, input') ↔
    ∃ a mid, p input = .ok (a, mid) ∧ f a mid = .ok (b, input') := by
  change (p input >>= fun s => f s.1 s.2) = _ ↔ _
  rw [TaggedRows.bind_eq_ok, Prod.exists]

/-- What is read of a text with a first keyword is read behind it. -/
theorem exists_of_readStatement {w : String} {p : Reader Statement} {rest : List Char}
    (h : (w, p) ∈ statementReaders) (hr : Token.Breaks rest) {reading : Option Reading}
    (hread : readStatement (w.toList ++ rest) = .ok reading) :
    ∃ r input, reading = some r ∧ p ⟨Token.lexemes rest, 0⟩ = .ok (r.statement, input) := by
  have hw : w ∈ usedKeywords := by
    simp only [statementReaders, List.mem_cons, List.not_mem_nil, or_false, Prod.mk.injEq] at h
    rcases h with ⟨rfl, -⟩ | ⟨rfl, -⟩ | ⟨rfl, -⟩ | ⟨rfl, -⟩ | ⟨rfl, -⟩ <;> decide
  obtain ⟨start, hl⟩ := next_keyword hw hr
  have hstatement := statement_eq h hr 0
  unfold readStatement at hread
  rw [hl] at hread hstatement
  rw [List.dropWhile_cons_of_neg (by simp)] at hread
  simp only at hread
  split at hread
  · cases hread
  · next s input hbody =>
    cases hread
    obtain ⟨s', mid, hs, hend⟩ := Reader.bind_eq_ok.mp hbody
    obtain ⟨token, mid', -, hend⟩ := Reader.bind_eq_ok.mp hend
    have hsame : s' = s := by
      split at hend
      · cases hend
        rfl
      · split at hend
        · cases hend
          rfl
        · cases hend
    exact ⟨_, mid, rfl, hsame ▸ hstatement ▸ hs⟩

theorem exists_of_delete {s : Statement} (h : delete input = .ok (s, input')) :
    ∃ table condition, s = .delete table condition := by
  obtain ⟨-, mid, -, h⟩ := Reader.bind_eq_ok.mp h
  obtain ⟨table, mid', -, h⟩ := Reader.bind_eq_ok.mp h
  obtain ⟨condition, last, -, h⟩ := Reader.bind_eq_ok.mp h
  cases h
  exact ⟨table, condition, rfl⟩

end Grammar

namespace Prepared

variable {db : Database} {text : List Char} {p : Option Prepared}

/-- A text is prepared as its first statement, if none stands behind it. -/
theorem only_eq_ok_iff : only db text = .ok p ↔ ∃ rest, first db text = .ok (p, rest) ∧
    (rest.length < text.length ∧ rest ≠ [] → only db rest = .ok none) := by
  rw [only, bind_eq_ok]
  constructor
  · rintro ⟨⟨q, rest⟩, hfirst, h⟩
    dsimp only at h
    split at h
    · next hrest =>
      obtain ⟨later, hlater, h⟩ := bind_eq_ok.mp h
      cases later with
      | none =>
        cases h
        exact ⟨rest, hfirst, fun _ => hlater⟩
      | some => cases h
    · next hrest =>
      cases h
      exact ⟨rest, hfirst, fun h => absurd h hrest⟩
  · rintro ⟨rest, hfirst, hlater⟩
    refine ⟨(p, rest), hfirst, ?_⟩
    dsimp only
    split
    · next hrest => exact bind_eq_ok.mpr ⟨none, hlater hrest, rfl⟩
    · rfl

/-- A text that begins as a deletion is prepared as one, if it is prepared. -/
theorem exists_of_only_delete (h : only db ("delete".toList ++ ' ' :: text) = .ok p) :
    ∃ table condition n, p = some ⟨.delete table condition, n⟩ := by
  obtain ⟨rest, hfirst, -⟩ := only_eq_ok_iff.mp h
  obtain ⟨reading, hread, hfirst⟩ := bind_eq_ok.mp hfirst
  obtain ⟨r, input, rfl, hdelete⟩ := Grammar.exists_of_readStatement (w := "delete")
    (p := Grammar.delete) (by simp [Grammar.statementReaders]) (Token.breaks_cons (by decide) _)
    hread
  obtain ⟨table, condition, hs⟩ := Grammar.exists_of_delete hdelete
  obtain ⟨plan, hplan, hfirst⟩ := bind_eq_ok.mp hfirst
  rw [hs] at hplan
  obtain ⟨u, -, hplan⟩ := bind_eq_ok.mp hplan
  obtain ⟨term, -, hplan⟩ := bind_eq_ok.mp hplan
  cases hplan
  cases hfirst
  exact ⟨table, term, _, rfl⟩

end Prepared

variable [Engine]

/-- A deletion of no rows changes no table. -/
theorem Effect.sameTables_of_delete {db : Database} {parameters : List Value} {table : String}
    {condition : Option Term} {effect : Effect}
    (h : ofPlan db parameters (.delete table condition) = some (.ok effect))
    (h0 : effect.changes = 0) : db.SameTables effect.database := by
  obtain ⟨u, hu, heffect⟩ := bind_eq_ok.mp (Option.some.inj h)
  cases heffect
  have hnone : u.remove (Term.holds condition parameters) = u := by
    rw [Table.remove, List.filter_eq_self.mpr fun row hrow => ?_]
    simpa using List.countP_eq_zero.mp h0 row hrow
  rw [hnone]
  exact Database.sameTables_setTable hu

namespace Connection

variable {c c' : Connection} {arguments : List Argument}

/-- A deletion that deletes nothing keeps the tables, whatever names are put into it. -/
theorem keeps_of_execute_delete {a : TableAccess}
    (h : c.execute (Query.delete a) arguments = (c', .ok 0)) : c.Keeps c' := by
  have htext : (Query.delete a).toList = "delete".toList ++
      ' ' :: ("from " ++ a.table ++ " where " ++ a.keyField ++ "=?").toList := by
    simp [Query.delete]
  rw [execute, htext] at h
  split at h
  · cases h
  · next p hp =>
    obtain ⟨table, condition, n, rfl⟩ := Prepared.exists_of_only_delete hp
    rw [runChange, run] at h
    dsimp only at h
    split at h
    · cases h
    · next hrun =>
      obtain ⟨rfl, hchanges⟩ := Prod.mk.inj h
      split at hrun
      · cases hrun
      · next parameters hbound =>
        rcases heffect : Effect.ofPlan c.database parameters (.delete table condition) with
          _ | e | effect
        · cases heffect
        · rw [step_of_error heffect] at hrun
          cases hrun
        · rw [step_of_ok heffect] at hrun
          cases hrun
          exact ⟨Effect.sameTables_of_delete heffect (Except.ok.inj hchanges), rfl⟩
    · cases h

end Connection

end TaggedRows.Sql
