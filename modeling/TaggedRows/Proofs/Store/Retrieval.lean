import TaggedRows.Proofs.Store.Refinement
import TaggedRows.Proofs.Store.Soundness

/-!
# Stored objects that find themselves

An object that has been added or replaced has the key of its row. With that key it is found again as
it is, and replacing it once more changes nothing: it *finds itself*. A key of 0 counts as none, but
a table may choose 0 for a new row, namely when its greatest key is -1. Such an object is stored and
does not find itself.

- **Histories** (`Change`, `Reachable`): what may have been done to a table before, with any objects
  and any keys.
- **Soundness** (`Serves.perform`, `Reachable.serves`): one change leaves a sound table, and so do
  many.
- **Retrieval** (`stored_findsItself_iff`): which stored objects find themselves.
-/

namespace TaggedRows.Store

open TaggedRows.Store.Action
open TaggedRows.Sql (Row Table minInteger maxInteger)
open TaggedRows.RecordType

section Histories

variable [Sql.Engine]

/-! ## Histories -/

/-- What changes an object or its table. -/
inductive Change where
  | setId (id : Int)
  | add
  | replace
  | save
  | delete
  deriving DecidableEq, Repr

namespace Change

/-- Keys are within the range of integers. -/
def IsProper : Change → Prop
  | setId id => minInteger ≤ id ∧ id ≤ maxInteger
  | _ => True

/-- The change stores its object. -/
def stores : Change → Bool
  | add | replace => true
  | _ => false

/-- Makes the change, with the object of the state. -/
def perform (t : RecordType) : Change → Action State Unit
  | setId id => do setRecord (t.withKey (← theRecord) id)
  | add => Store.add t
  | replace => Store.replace t
  | save => Store.save t
  | delete => Store.delete t

end Change

/-- The states that changes lead to from a handle. Each change may have an object of its own. -/
inductive Reachable (t : RecordType) (start : Handle) : State → Prop
  | start {r : Record} : t.Admits r → Reachable t start (start, r)
  | take {h : Handle} {r r' : Record} :
      Reachable t start (h, r) → t.Admits r' → Reachable t start (h, r')
  | change {s : State} {c : Change} :
      Reachable t start s → c.IsProper → Reachable t start (c.perform t s).state

/-! ## Soundness -/

variable {t : RecordType} {tableName : String} {key : MappedField} {place : MappedField → Nat}
  {start h : Handle} {r : Record} {u : Table}

/-- A change leaves a sound table and an object that can be used again. -/
theorem Serves.perform (hs : Serves t tableName key place h u) (hk : t.IsKeyed key)
    (hr : t.Admits r) {c : Change} (hc : c.IsProper) : t.Admits (c.perform t (h, r)).state.2 ∧
      ∃ rows, Serves t tableName key place (c.perform t (h, r)).state.1 (u.withRows rows) := by
  have hwrite : ∀ {id : Int} {run : Run State Unit}, Refused t tableName key place u r run ∨
      StoredAs t tableName key place u id run → t.Admits run.state.2 ∧
      ∃ rows, Serves t tableName key place run.state.1 (u.withRows rows) := by
    rintro id run (hrun | hrun)
    · exact ⟨hrun.record_eq ▸ hr, u.rows, hrun.serves⟩
    · obtain ⟨-, rows, -, -, hs'⟩ := hrun.exists_row
      exact ⟨hrun.admits, rows, hs'⟩
  cases c with
  | setId id => exact ⟨hk.admits_withKey hr hc, u.rows, hs⟩
  | add => exact hwrite (hs.add_cases hk hr)
  | replace =>
    by_cases h0 : t.keyOf r = 0
    · exact hwrite (hs.replace_cases_of_new hk hr h0)
    · exact hwrite (hs.replace_cases_of_key hk hr h0)
  | save =>
    obtain ⟨rows, hrecord, hs'⟩ := hs.save_cases hk hr
    refine ⟨?_, rows, hs'⟩
    rwa [Change.perform, hrecord]
  | delete =>
    obtain ⟨rows, hrecord, hs'⟩ := hs.delete_cases hk hr
    refine ⟨?_, rows, hs'⟩
    rwa [Change.perform, hrecord]

theorem Reachable.serves (hs : Serves t tableName key place start u) (hk : t.IsKeyed key)
    {s : State} (h : Reachable t start s) : t.Admits s.2 ∧
      ∃ rows, Serves t tableName key place s.1 (u.withRows rows) := by
  induction h with
  | start hr => exact ⟨hr, u.rows, hs⟩
  | take _ hr ih => exact ⟨hr, ih.2⟩
  | change _ hc ih =>
    obtain ⟨hr, rows, hs'⟩ := ih
    obtain ⟨hr', rows', hs''⟩ := hs'.perform hk hr hc
    exact ⟨hr', rows', hs''⟩

/-! ## Retrieval -/

/-- The object has a key under which it is found as it is, and under which it takes its own place
when it is replaced. -/
structure FindsItself (t : RecordType) (tableName : String) (s : State) : Prop where
  keyOf_ne : t.keyOf s.2 ≠ 0
  findSelf_eq : (findSelf t s).result = .ok true
  record_eq : (findSelf t s).state.2 = s.2
  replace_eq : (replace t s).result = .ok ()
  table_eq : (replace t s).state.1.connection.database.table tableName =
    s.1.connection.database.table tableName

/-- An object that is stored under another number than 0 finds itself. -/
theorem StoredAs.findsItself {id : Int} {run : Run State Unit}
    (h : StoredAs t tableName key place u id run) (hk : t.IsKeyed key) (h0 : id ≠ 0) :
    FindsItself t tableName run.state := by
  obtain ⟨row, rows, hmem, hrow, hs⟩ := h.exists_row
  have hrow := hrow.withRows rows
  rw [← h.keyOf_eq] at h0
  obtain ⟨log, hfind⟩ := hs.findSelf_eq hk h.admits hmem hrow h0
  obtain ⟨log', h', hreplace, hs'⟩ := hs.replace_eq hk h.admits hmem hrow h0
  have hstate : run.state = (run.state.1, run.state.2) := rfl
  refine ⟨h0, ?_, ?_, ?_, ?_⟩
  · rw [hstate, hfind]
  · rw [hstate, hfind]
  · rw [hstate, hreplace]
  · rw [hs.table_eq, hstate, hreplace]
    exact hs'.table_eq

/-- What adding or replacing an object comes to if it succeeds: its key is the number of its row,
which the table has chosen if the object came without one. -/
theorem Serves.storedAs (hs : Serves t tableName key place h u) (hk : t.IsKeyed key)
    (hr : t.Admits r) {c : Change} (hc : c.stores = true)
    (hok : (c.perform t (h, r)).result = .ok ()) :
    StoredAs t tableName key place u
      (if c = .add ∨ t.keyOf r = 0 then u.freshId else t.keyOf r) (c.perform t (h, r)) := by
  have hstored : ∀ {id : Int}, Refused t tableName key place u r (c.perform t (h, r)) ∨
      StoredAs t tableName key place u id (c.perform t (h, r)) →
      StoredAs t tableName key place u id (c.perform t (h, r)) := fun hrun =>
    hrun.resolve_left fun hrefused => hrefused.result_ne hok
  cases c with
  | add => exact hstored (hs.add_cases hk hr)
  | replace =>
    by_cases h0 : t.keyOf r = 0
    · rw [if_pos (.inr h0)]
      exact hstored (hs.replace_cases_of_new hk hr h0)
    · rw [if_neg (by simp [h0])]
      exact hstored (hs.replace_cases_of_key hk hr h0)
  | _ => cases hc

/-- An object that has been added or replaced finds itself, unless it came without a key when the
greatest key was -1: then its key is 0, and it is refused for want of a key. -/
theorem Serves.findsItself_iff (hs : Serves t tableName key place h u) (hk : t.IsKeyed key)
    (hr : t.Admits r) {c : Change} (hc : c.stores = true)
    (hok : (c.perform t (h, r)).result = .ok ()) :
    (FindsItself t tableName (c.perform t (h, r)).state ↔
      ¬ ((c = .add ∨ t.keyOf r = 0) ∧ (u.rows.map Row.id).max? = some (-1))) ∧
    (¬ FindsItself t tableName (c.perform t (h, r)).state →
      t.keyOf (c.perform t (h, r)).state.2 = 0 ∧
      (findSelf t (c.perform t (h, r)).state).result = .error (.keyMissing t.mapping.table)) := by
  have hstored := hs.storedAs hk hr hc hok
  have hzero : (if c = .add ∨ t.keyOf r = 0 then u.freshId else t.keyOf r) = 0 ↔
      (c = .add ∨ t.keyOf r = 0) ∧ (u.rows.map Row.id).max? = some (-1) := by
    have hfresh := Table.freshId_eq_zero_iff hs.isSound.ordered
    split
    · next hnew => exact hfresh.trans (and_iff_right hnew).symm
    · next hold => exact iff_of_false (fun h0 => hold (.inr h0)) fun hz => hold hz.1
  have hfinds : FindsItself t tableName (c.perform t (h, r)).state ↔
      ¬ ((c = .add ∨ t.keyOf r = 0) ∧ (u.rows.map Row.id).max? = some (-1)) := by
    rw [← hzero]
    exact ⟨fun hf h0 => hf.keyOf_ne (hstored.keyOf_eq.trans h0), hstored.findsItself hk⟩
  refine ⟨hfinds, fun hnot => ?_⟩
  have h0 : t.keyOf (c.perform t (h, r)).state.2 = 0 :=
    hstored.keyOf_eq.trans (hzero.mpr (not_not.mp (mt hfinds.mpr hnot)))
  refine ⟨h0, ?_⟩
  exact congrArg Run.result (findSelf_of_zero (hs.keyField_ne_empty hk) h0)

end Histories

/-! ### Notes -/

theorem isKeyed_note : noteType.IsKeyed noteKey :=
  isKeyed_of_ofTags? ofTags?_note (by decide) rfl rfl (by decide)

theorem stands_notesHandle :
    Stands noteType "notes" noteKey notesTable.placeOf notesHandle notesTable fun _ => none :=
  ⟨rfl, table_notesHandle, suitsTable_note.storedIn, Represents.nil⟩

/-- A note is added as long as there is a positive number left. -/
theorem Stands.add_note {m : Contents} (title : String)
    (hs : Stands noteType "notes" noteKey notesTable.placeOf h u m) (hfree : m 1 = none) :
    (Change.add.perform noteType (h, noteOf 0 title)).result = .ok () := by
  have hr : noteType.Admits (noteOf 0 title) := admits_noteOf (by decide) title
  rcases hs.add_eq isKeyed_note hr with ⟨_, -, -, _, _, _, hadd, -⟩ | ⟨hfull, -⟩
  · exact congrArg Run.result hadd
  · exact absurd hfree (hfull 1 (by decide) (by decide))

/-- A note has been stored under -1, and another one is to be added. -/
def afterMinusOne : State :=
  ((Change.replace.perform noteType
    ((Change.setId (-1)).perform noteType (notesHandle, noteOf 0 "a")).state).state.1, noteOf 0 "b")

end TaggedRows.Store
