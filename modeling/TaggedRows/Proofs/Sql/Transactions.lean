import TaggedRows.Proofs.Sql.Columns

/-!
# One text for many rows of arguments

A text is run for every row of arguments within a transaction. The transaction can fail to begin and
to end for reasons outside the database, so both are parameters here.

- **Boundaries** (`Boundary`, `Boundary.IsLawful`): how a transaction begins and ends. Those of a
  connection on its own are lawful (`Boundary.isLawful_plain`).
- **Runs** (`executeEach`, `runMany_eq`): a prepared change inside of a transaction does to the
  tables what its text does outside of one, row of arguments by row of arguments. All of the
  arguments have to be converted (`converts_of_executeEach`).
- **Atomicity** (`RunsAll`, `executeManyWith_cases`): everything happens or nothing does.
-/

namespace TaggedRows.Sql.Connection

variable {c c' : Connection} {text : String} {parameters : List Value}
  {rows : List (List Argument)}
variable {p : Option Prepared} {e : Fault} {db : Database}

/-- The connection with another database to go back to. -/
def withSaved (c : Connection) (saved : Option Database) : Connection := { c with saved }

@[simp] theorem withSaved_saved (saved : Option Database) : (c.withSaved saved).saved = saved := rfl

@[simp] theorem withSaved_database (saved : Option Database) :
    (c.withSaved saved).database = c.database := rfl

@[simp] theorem withSaved_withSaved (saved saved' : Option Database) :
    (c.withSaved saved).withSaved saved' = c.withSaved saved' := rfl

theorem withSaved_of_eq {saved : Option Database} (h : c.saved = saved) :
    c.withSaved saved = c := by
  rw [← h]
  rfl

/-! ## Boundaries -/

/-- How a transaction begins and ends. -/
structure Boundary where
  begin : Connection → Connection × Except Fault Unit
  commit : Connection → Connection × Except Fault Unit

namespace Boundary

/-- A transaction begins only where none is open. One that does not begin changes nothing, and one
that does not end is still open or has been rolled back. -/
structure IsLawful (b : Boundary) : Prop where
  begin_ok {c c' : Connection} (h : b.begin c = (c', .ok ())) :
    c.saved = none ∧ c' = c.withSaved (some c.database)
  begin_error {c c' : Connection} {e : Fault} (h : b.begin c = (c', .error e)) : c' = c
  commit_ok {c c' : Connection} (h : b.commit c = (c', .ok ())) : c' = c.withSaved none
  commit_error {c c' : Connection} {e : Fault} (h : b.commit c = (c', .error e)) :
    c' = c ∨ c' = c.abandon

variable [Engine]

/-- The transactions of a connection on its own. -/
def plain : Boundary where
  begin c := ((c.step [] .begin).1, (c.step [] .begin).2.map fun _ => ())
  commit c := ((c.step [] .commit).1, (c.step [] .commit).2.map fun _ => ())

/-- A transaction begins where none is open. -/
theorem plain_begin_cases (c : Connection) :
    c.saved = none ∧ plain.begin c = (c.withSaved (some c.database), .ok ()) ∨
      plain.begin c = (c, .error .transactionOpen) := by
  cases hsaved : c.saved with
  | none => exact .inl ⟨rfl, by simp [plain, step, Effect.ofPlan, hsaved, withSaved, Except.map]⟩
  | some db => exact .inr (by simp [plain, step, Effect.ofPlan, hsaved, Except.map])

/-- A transaction ends where one is open. -/
theorem plain_commit_cases (c : Connection) :
    plain.commit c = (c.withSaved none, .ok ()) ∨
      plain.commit c = (c, .error .nothingToCommit) := by
  cases hsaved : c.saved with
  | none => exact .inr (by simp [plain, step, Effect.ofPlan, hsaved, Except.map])
  | some db => exact .inl (by simp [plain, step, Effect.ofPlan, hsaved, withSaved, Except.map])

theorem isLawful_plain : plain.IsLawful where
  begin_ok {c c'} h := by
    obtain ⟨hnone, hbegin⟩ | hbegin := plain_begin_cases c
    · rw [hbegin] at h
      cases h
      exact ⟨hnone, rfl⟩
    · rw [hbegin] at h
      cases h
  begin_error {c c' e} h := by
    obtain ⟨-, hbegin⟩ | hbegin := plain_begin_cases c <;> rw [hbegin] at h <;> cases h
    rfl
  commit_ok {c c'} h := by
    obtain hcommit | hcommit := plain_commit_cases c <;> rw [hcommit] at h <;> cases h
    rfl
  commit_error {c c' e} h := by
    obtain hcommit | hcommit := plain_commit_cases c <;> rw [hcommit] at h <;> cases h
    exact .inl rfl

end Boundary

variable [Engine]

/-- Runs a text of one statement for every row of arguments, within a transaction of the given
boundary. -/
def executeManyWith (b : Boundary) (c : Connection) (text : String) (rows : List (List Argument)) :
    Connection × Except Fault Nat :=
  match b.begin c with
  | (c, .error e) => (c, .error e)
  | (c, .ok _) =>
    match Prepared.only c.database text.toList with
    | .error e => (c.abandon, .error e)
    | .ok p =>
      match runMany p c rows with
      | (c, .error e) => (c.abandon, .error e)
      | (c, .ok n) =>
        match b.commit c with
        | (c, .error e) => (c.abandon, .error e)
        | (c, .ok _) => (c, .ok n)

theorem executeMany_eq (c : Connection) (text : String) (rows : List (List Argument)) :
    c.executeMany text rows = executeManyWith .plain c text rows := by
  rw [executeMany, executeManyWith]
  dsimp only [Boundary.plain]
  generalize c.step [] .begin = first
  obtain ⟨c₁, e | _⟩ := first
  · rfl
  · dsimp only [Except.map]
    generalize Prepared.only c₁.database text.toList = prepared
    obtain e | p := prepared
    · rfl
    · dsimp only
      generalize runMany p c₁ rows = run
      obtain ⟨last, e | n⟩ := run
      · rfl
      · dsimp only
        generalize last.step [] .commit = final
        obtain ⟨c₂, e | _⟩ := final <;> rfl

/-! ## Runs -/

/-- Runs a text of one statement for one row of arguments after another, each on its own, up to the
first that fails, and gives the number of rows that were changed in all. -/
def executeEach (text : String) (c : Connection) :
    List (List Argument) → Connection × Except Fault Nat
  | [] => (c, .ok 0)
  | arguments :: rest =>
    match c.execute text arguments with
    | (c, .error e) => (c, .error e)
    | (c, .ok n) =>
      let (c, r) := executeEach text c rest
      (c, r.map (n + ·))

theorem exists_effect {plan : Plan} (hplan : plan.IsChange) (db : Database)
    (parameters : List Value) : ∃ r, Effect.ofPlan db parameters plan = some r := by
  cases plan with
  | insert | update | delete => exact ⟨_, rfl⟩
  | _ => cases hplan

/-- A change of rows does not see the open transaction. -/
theorem step_withSaved {plan : Plan} (hplan : plan.IsChange) (saved : Option Database) :
    (c.withSaved saved).step parameters plan =
      ((c.step parameters plan).1.withSaved saved, (c.step parameters plan).2) := by
  obtain ⟨e | effect, h⟩ := exists_effect hplan c.database parameters
  · rw [step_of_error h, step_of_error (c := c.withSaved saved) h]
    rfl
  · rw [step_of_ok h, step_of_ok (c := c.withSaved saved) h]
    rfl

/-- A change of rows keeps the columns, and the open transaction. -/
theorem sameColumns_of_step {plan : Plan} (hplan : plan.IsChange) :
    c.database.SameColumns (c.step parameters plan).1.database ∧
      (c.step parameters plan).1.saved = c.saved := by
  obtain ⟨e | effect, h⟩ := exists_effect hplan c.database parameters
  · rw [step_of_error h]
    exact ⟨.refl _, rfl⟩
  · rw [step_of_ok h]
    exact ⟨Effect.sameColumns h, rfl⟩

section

variable (hp : ∀ q, p = some q → q.plan.IsChange)
include hp

theorem run_withSaved (arguments : List Argument) (saved : Option Database) :
    (c.withSaved saved).run p arguments =
      ((c.run p arguments).1.withSaved saved, (c.run p arguments).2) := by
  unfold run
  cases Argument.boundFor ((p.map Prepared.parameters).getD 0) arguments with
  | error e => rfl
  | ok parameters =>
    cases p with
    | none => rfl
    | some q => exact step_withSaved (hp q rfl) saved

theorem sameColumns_of_run (arguments : List Argument) :
    c.database.SameColumns (c.run p arguments).1.database ∧
      (c.run p arguments).1.saved = c.saved := by
  unfold run
  cases Argument.boundFor ((p.map Prepared.parameters).getD 0) arguments with
  | error e => exact ⟨.refl _, rfl⟩
  | ok parameters =>
    cases p with
    | none => exact ⟨.refl _, rfl⟩
    | some q => exact sameColumns_of_step (hp q rfl)

theorem runChange_withSaved (arguments : List Argument) (saved : Option Database) :
    (c.withSaved saved).runChange p arguments =
      ((c.runChange p arguments).1.withSaved saved, (c.runChange p arguments).2) := by
  rw [runChange, runChange, run_withSaved hp]
  generalize c.run p arguments = next
  obtain ⟨c₁, e | _ | _⟩ := next <;> rfl

theorem sameColumns_of_runChange (arguments : List Argument) :
    c.database.SameColumns (c.runChange p arguments).1.database ∧
      (c.runChange p arguments).1.saved = c.saved := by
  have hrun := sameColumns_of_run (c := c) hp arguments
  rw [runChange]
  generalize c.run p arguments = next at hrun ⊢
  obtain ⟨c₁, e | _ | _⟩ := next <;> exact hrun

end

/-- A prepared change runs for many rows of arguments inside of a transaction as its text does for
each of them outside of one. The text is prepared once for all rows, since no change touches the
columns. -/
theorem runMany_eq (htext : isChangeText text.toList = true)
    (hp : Prepared.only c.database text.toList = .ok p) (saved : Option Database)
    (rows : List (List Argument)) :
    runMany p (c.withSaved saved) rows =
        ((executeEach text c rows).1.withSaved saved, (executeEach text c rows).2) ∧
      (executeEach text c rows).1.saved = c.saved := by
  have hchange : ∀ q, p = some q → q.plan.IsChange := by
    rintro q rfl
    exact Prepared.isChange_of_only htext hp
  induction rows generalizing c with
  | nil => exact ⟨rfl, rfl⟩
  | cons arguments rest ih =>
    have hexecute : c.execute text arguments = c.runChange p arguments := by rw [execute, hp]
    rw [runMany, executeEach, runChange_withSaved hchange, hexecute]
    obtain ⟨hcolumns, hsaved⟩ := sameColumns_of_runChange (c := c) hchange arguments
    generalize c.runChange p arguments = next at hcolumns hsaved ⊢
    obtain ⟨c₁, e | n⟩ := next
    · exact ⟨rfl, hsaved⟩
    · obtain ⟨hrest, hkept⟩ := ih (Prepared.only_congr hcolumns htext hp)
      dsimp only
      rw [hrest]
      exact ⟨rfl, hkept.trans hsaved⟩

/-- A text is run only where all arguments are converted. -/
theorem converts_of_execute {arguments : List Argument} {n : Nat}
    (h : (c.execute text arguments).2 = .ok n) : ∀ a ∈ arguments, a.Converts := by
  rw [execute] at h
  cases hp : Prepared.only c.database text.toList with
  | error e =>
    rw [hp] at h
    cases h
  | ok p =>
    cases hb : Argument.boundFor ((p.map Prepared.parameters).getD 0) arguments with
    | ok parameters => exact Argument.converts_of_boundFor hb
    | error e =>
      rw [hp] at h
      simp [runChange, run, hb] at h

theorem converts_of_executeEach {total : Nat} (h : (executeEach text c rows).2 = .ok total) :
    ∀ arguments ∈ rows, ∀ a ∈ arguments, a.Converts := by
  induction rows generalizing c total with
  | nil => exact nofun
  | cons arguments rest ih =>
    rw [executeEach] at h
    rcases hx : c.execute text arguments with ⟨c₁, e | n⟩
    · rw [hx] at h
      cases h
    · have hfirst : (c.execute text arguments).2 = .ok n := by rw [hx]
      rw [hx] at h
      dsimp only at h
      rcases hrest : executeEach text c₁ rest with ⟨last, e | m⟩
      · rw [hrest] at h
        cases h
      · exact List.forall_mem_cons.mpr ⟨converts_of_execute hfirst, ih (by rw [hrest])⟩

/-! ## Atomicity -/

/-- The transaction begins and ends, the text can be prepared, and it runs for each row of
arguments: with them all, `total` rows are changed, and the connection becomes `last`. -/
structure RunsAll (b : Boundary) (text : String) (c : Connection) (rows : List (List Argument))
    (last : Connection) (total : Nat) : Prop where
  begins : (b.begin c).2 = .ok ()
  prepares : ∃ p, Prepared.only c.database text.toList = .ok p
  runs : executeEach text c rows = (last, .ok total)
  commits : (b.commit (last.withSaved (some c.database))).2 = .ok ()

/-- All of it happens, or nothing is left of it. -/
theorem executeManyWith_cases {b : Boundary} (hb : b.IsLawful)
    (htext : isChangeText text.toList = true) (c : Connection) (rows : List (List Argument)) :
    (∃ last total, RunsAll b text c rows last total ∧
      executeManyWith b c text rows = (last, .ok total)) ∨
    (∀ last total, ¬ RunsAll b text c rows last total) ∧ ∃ c' e,
      executeManyWith b c text rows = (c', .error e) ∧
        c'.database = c.database ∧ c'.saved = c.saved := by
  unfold executeManyWith
  rcases hbegin : b.begin c with ⟨c₁, e | ⟨⟨⟩⟩⟩
  · refine .inr ⟨fun last total h => ?_, c₁, e, rfl, ?_⟩
    · have hfirst := h.begins
      rw [hbegin] at hfirst
      cases hfirst
    · rw [hb.begin_error hbegin]
      exact ⟨rfl, rfl⟩
  obtain ⟨hnone, rfl⟩ := hb.begin_ok hbegin
  dsimp only [withSaved_database]
  rcases hprepared : Prepared.only c.database text.toList with e | p
  · refine .inr ⟨fun last total h => ?_, _, e, rfl, rfl, hnone.symm⟩
    obtain ⟨p, hp⟩ := h.prepares
    rw [hprepared] at hp
    cases hp
  obtain ⟨hrun, hsaved⟩ := runMany_eq htext hprepared (some c.database) rows
  rcases heach : executeEach text c rows with ⟨last, e | n⟩
  · rw [heach] at hrun
    dsimp only
    rw [hrun]
    refine .inr ⟨fun last' total h => ?_, _, e, rfl, rfl, hnone.symm⟩
    have hruns := h.runs
    rw [heach] at hruns
    cases hruns
  rw [heach] at hrun hsaved
  dsimp only
  rw [hrun]
  dsimp only
  rcases hcommit : b.commit (last.withSaved (some c.database)) with ⟨c₂, e | ⟨⟨⟩⟩⟩
  · refine .inr ⟨fun last' total h => ?_, _, e, rfl, ?_⟩
    · have hcommits := h.commits
      have hruns := h.runs
      rw [heach] at hruns
      cases hruns
      rw [hcommit] at hcommits
      cases hcommits
    -- A commit that fails may have rolled the transaction back already.
    · obtain rfl | rfl := hb.commit_error hcommit
      · exact ⟨rfl, hnone.symm⟩
      · exact ⟨rfl, hnone.symm⟩
  · have hlast : c₂ = last := by
      rw [hb.commit_ok hcommit, withSaved_withSaved, withSaved_of_eq (hsaved.trans hnone)]
    refine .inl ⟨last, n, ⟨by rw [hbegin], ⟨p, hprepared⟩, heach, by rw [hcommit]⟩, ?_⟩
    rw [hlast]

end TaggedRows.Sql.Connection
