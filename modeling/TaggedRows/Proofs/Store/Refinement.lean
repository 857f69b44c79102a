import TaggedRows.Proofs.Store.Operations
import TaggedRows.Proofs.Store.Schema
import TaggedRows.Sql.Double

/-!
# A table is a keyed store

Calls of the operations on objects of a type with a key, in any order, are answered by a map from
keys to the values of the other columns.

- **Calls** (`Call`, `perform`, `runCalls`): a run of calls, each on an object of its own. What a
  call finds in its object may be what an earlier call left in one.
- **The map** (`Step`, `Runs`): what each call makes of a map and of its object, and its answer.
- **Refinement** (`step_refines`, `runCalls_refines`): every run on a table that starts out empty is
  a run of the map that does.
-/

namespace TaggedRows.Store

open TaggedRows.Store.Action
open TaggedRows.Sql (Table minInteger maxInteger)
open TaggedRows.RecordType

/-! ## Calls -/

inductive Call where
  | add
  | replace
  | save
  | delete
  | deleteById (id : Int)
  | findById (id : Int)
  | findSelf
  | list
  deriving DecidableEq, Repr

/-- The key that the call asks for, if it asks for one, is within the range of integers. -/
def Call.IsProper : Call → Prop
  | deleteById id | findById id => minInteger ≤ id ∧ id ≤ maxInteger
  | _ => True

inductive Answer where
  | done
  | found (isThere : Bool)
  | record (r : Option Record)
  | records (rs : List Record)
  deriving DecidableEq, Repr

section Calls

variable [Sql.Engine]

/-- Performs a call on the object of the state. -/
def perform (t : RecordType) : Call → Action State Answer
  | .add => do add t; return .done
  | .replace => do replace t; return .done
  | .save => do save t; return .done
  | .delete => do delete t; return .done
  | .deleteById id => do onFirst (deleteById t id); return .done
  | .findById id => do return .record (← onFirst (findById t id))
  | .findSelf => do return .found (← findSelf t)
  | .list => do return .records (← onFirst (list t))

/-- An object after a call, and the answer. -/
abbrev Outcome := Record × Except Failure Answer

/-- The outcomes of some calls one after another, each on the object beside it. -/
def runCalls (t : RecordType) (h : Handle) : List (Call × Record) → List Outcome
  | [] => []
  | (c, r) :: calls =>
    let run := perform t c (h, r)
    (run.state.2, run.result) :: runCalls t run.state.1 calls

end Calls

/-! ## The map -/

/-- What a call on an object makes of a map from keys to values, and its outcome. -/
inductive Step (t : RecordType) (key : MappedField) (m : Contents) (r : Record) :
    Call → Contents → Outcome → Prop
  | add {id : Int} : m id = none → minInteger ≤ id → id ≤ maxInteger →
      Step t key m r .add (m.set id (some (t.columnValues r))) (t.withKey r id, .ok .done)
  /-- There is no key left to choose. -/
  | addFull : (∀ id, 1 ≤ id → id ≤ maxInteger → m id ≠ none) →
      Step t key m r .add m (r, .error (.database .full))
  | replaceNew {id : Int} : t.keyOf r = 0 → m id = none → minInteger ≤ id →
      id ≤ maxInteger →
      Step t key m r .replace (m.set id (some (t.columnValues r))) (t.withKey r id, .ok .done)
  | replaceFull : t.keyOf r = 0 → (∀ id, 1 ≤ id → id ≤ maxInteger → m id ≠ none) →
      Step t key m r .replace m (r, .error (.database .full))
  | replace : t.keyOf r ≠ 0 →
      Step t key m r .replace (m.set (t.keyOf r) (some (t.columnValues r))) (r, .ok .done)
  | save {values : Record} : t.mapping.updated ≠ [] → m (t.keyOf r) = some values →
      Step t key m r .save (m.set (t.keyOf r) (some (merged t r values))) (r, .ok .done)
  | saveAbsent : m (t.keyOf r) = none → Step t key m r .save m (r, .ok .done)
  | saveFixed : t.mapping.updated = [] → Step t key m r .save m (r, .ok .done)
  | delete : m (t.keyOf r) ≠ none →
      Step t key m r .delete (m.set (t.keyOf r) none) (r, .ok .done)
  | deleteAbsent : m (t.keyOf r) = none →
      Step t key m r .delete m (r, .error (.notDeleted (t.keyOf r)))
  | deleteById {id : Int} : m id ≠ none →
      Step t key m r (.deleteById id) (m.set id none) (r, .ok .done)
  | deleteByIdAbsent {id : Int} : m id = none →
      Step t key m r (.deleteById id) m (r, .error (.notDeleted id))
  | findById {id : Int} :
      Step t key m r (.findById id) m (r, .ok (.record ((m id).map (t.fresh.withRow key id))))
  | findSelf {values : Record} : t.keyOf r ≠ 0 → m (t.keyOf r) = some values →
      Step t key m r .findSelf m (r.withRow key (t.keyOf r) values, .ok (.found true))
  | findSelfAbsent : t.keyOf r ≠ 0 → m (t.keyOf r) = none →
      Step t key m r .findSelf m (r, .ok (.found false))
  | findSelfUnset : t.keyOf r = 0 →
      Step t key m r .findSelf m (r, .error (.keyMissing t.mapping.table))
  | list {ids : List Int} : ids.Pairwise (· < ·) → (∀ id, id ∈ ids ↔ m id ≠ none) →
      Step t key m r .list m
        (r, .ok (.records (ids.map fun id => t.fresh.withRow key id ((m id).getD []))))

/-- What some calls make of a map, and their outcomes. -/
inductive Runs (t : RecordType) (key : MappedField) :
    Contents → List (Call × Record) → Contents → List Outcome → Prop
  | nil {m : Contents} : Runs t key m [] m []
  | cons {m m' m'' : Contents} {c : Call} {r : Record} {calls : List (Call × Record)}
      {outcome : Outcome} {outcomes : List Outcome} :
      Step t key m r c m' outcome → Runs t key m' calls m'' outcomes →
      Runs t key m ((c, r) :: calls) m'' (outcome :: outcomes)

/-! ## Refinement -/

section Refinement

variable [Sql.Engine] {t : RecordType} {tableName : String} {key : MappedField}
  {place : MappedField → Nat} {h : Handle} {m : Contents} {r : Record} {u : Table}

/-- A call does to a table what it does to the map that the table stands for. -/
theorem step_refines (hk : t.IsKeyed key) (hs : Stands t tableName key place h u m)
    (hr : t.Admits r) {c : Call} (hc : c.IsProper) : ∃ m' u',
      Step t key m r c m' ((perform t c (h, r)).state.2, (perform t c (h, r)).result) ∧
      Stands t tableName key place (perform t c (h, r)).state.1 u' m' := by
  cases c with
  | add =>
    rcases hs.add_eq hk hr with ⟨id, hm, ⟨hmin, hmax⟩, log, h', u', hx, hs'⟩ |
      ⟨hfull, log, h', hx, hs'⟩
    · simp only [perform, bind, Action.bind, hx]
      exact ⟨_, u', .add hm hmin hmax, hs'⟩
    · simp only [perform, bind, Action.bind, hx]
      exact ⟨m, u, .addFull hfull, hs'⟩
  | replace =>
    by_cases h0 : t.keyOf r = 0
    · rcases hs.replace_eq_of_new hk hr h0 with ⟨id, hm, ⟨hmin, hmax⟩, log, h', u', hx, hs'⟩ |
        ⟨hfull, log, h', hx, hs'⟩
      · simp only [perform, bind, Action.bind, hx]
        exact ⟨_, u', .replaceNew h0 hm hmin hmax, hs'⟩
      · simp only [perform, bind, Action.bind, hx]
        exact ⟨m, u, .replaceFull h0 hfull, hs'⟩
    · obtain ⟨log, h', u', hx, hs'⟩ := hs.replace_eq_of_stored hk hr h0
      simp only [perform, bind, Action.bind, hx]
      exact ⟨_, u', .replace h0, hs'⟩
  | save =>
    by_cases hu : t.mapping.updated = []
    · have hx := hs.save_eq_of_fixed hk r hu
      simp only [perform, bind, Action.bind, hx]
      exact ⟨m, u, .saveFixed hu, hs⟩
    · obtain ⟨log, h', u', hx, hs'⟩ := hs.save_eq hk hr hu
      simp only [perform, bind, Action.bind, hx]
      cases hm : m (t.keyOf r) with
      | none =>
        rw [hm, Option.map_none, Contents.set_eq_self m hm] at hs'
        exact ⟨m, u', .saveAbsent hm, hs'⟩
      | some values =>
        rw [hm, Option.map_some] at hs'
        exact ⟨_, u', .save hu hm, hs'⟩
  | delete =>
    obtain ⟨log, h', u', hx, hs'⟩ := hs.delete_eq hk hr
    by_cases hm : m (t.keyOf r) = none
    · rw [if_pos hm] at hx
      rw [Contents.set_eq_self m hm] at hs'
      simp only [perform, bind, Action.bind, hx]
      exact ⟨m, u', .deleteAbsent hm, hs'⟩
    · rw [if_neg hm] at hx
      simp only [perform, bind, Action.bind, hx]
      exact ⟨_, u', .delete hm, hs'⟩
  | deleteById id =>
    obtain ⟨log, h', u', hx, hs'⟩ := hs.deleteById_eq hk hc
    by_cases hm : m id = none
    · rw [if_pos hm] at hx
      rw [Contents.set_eq_self m hm] at hs'
      simp only [perform, onFirst, bind, Action.bind, hx]
      exact ⟨m, u', .deleteByIdAbsent hm, hs'⟩
    · rw [if_neg hm] at hx
      simp only [perform, onFirst, bind, Action.bind, hx]
      exact ⟨_, u', .deleteById hm, hs'⟩
  | findById id =>
    obtain ⟨log, hx⟩ := hs.findById_eq hk hc
    simp only [perform, onFirst, bind, Action.bind, hx]
    exact ⟨m, u, .findById, hs⟩
  | findSelf =>
    by_cases h0 : t.keyOf r = 0
    · have hx := hs.findSelf_eq_of_new hk r h0
      simp only [perform, bind, Action.bind, hx]
      exact ⟨m, u, .findSelfUnset h0, hs⟩
    · obtain ⟨log, hx⟩ := hs.findSelf_eq_of_stored hk hr h0
      simp only [perform, bind, Action.bind, hx]
      cases hm : m (t.keyOf r) with
      | none => exact ⟨m, u, .findSelfAbsent h0 hm, hs⟩
      | some values => exact ⟨m, u, .findSelf h0 hm, hs⟩
  | list =>
    obtain ⟨log, ids, hx, hsorted, hids⟩ := hs.list_eq hk
    simp only [perform, onFirst, bind, Action.bind, hx]
    exact ⟨m, u, .list hsorted hids, hs⟩

/-- The object after a call is one of the type, so that it can be used again. -/
theorem Step.admits {c : Call} {m' : Contents} {outcome : Outcome}
    (hk : t.IsKeyed key) (hs : Stands t tableName key place h u m) (hr : t.Admits r)
    (hstep : Step t key m r c m' outcome) : t.Admits outcome.1 := by
  cases hstep with
  | add _ hmin hmax => exact hk.admits_withKey hr ⟨hmin, hmax⟩
  | replaceNew _ _ hmin hmax => exact hk.admits_withKey hr ⟨hmin, hmax⟩
  | findSelf _ hm =>
    obtain ⟨row, hrow, hid, hv⟩ := hs.represents.exists_holds hm
    rw [← hid]
    exact hr.withRow hk (hs.represents.isRow row hrow) hv
  | _ => exact hr

/-- Some calls do to a table what they do to the map that the table stands for. -/
theorem runCalls_runs (hk : t.IsKeyed key) (hs : Stands t tableName key place h u m)
    {calls : List (Call × Record)} (hr : ∀ c ∈ calls, c.1.IsProper ∧ t.Admits c.2) :
    (∃ m', Runs t key m calls m' (runCalls t h calls)) ∧
      ∀ outcome ∈ runCalls t h calls, t.Admits outcome.1 := by
  induction calls generalizing h u m with
  | nil => exact ⟨⟨m, .nil⟩, fun _ ho => absurd ho List.not_mem_nil⟩
  | cons c calls ih =>
    obtain ⟨hproper, hc⟩ := hr c (List.mem_cons_self ..)
    obtain ⟨m', u', hstep, hs'⟩ := step_refines hk hs hc hproper
    obtain ⟨⟨m'', hruns⟩, hrest⟩ := ih hs' fun c hc => hr c (List.mem_cons_of_mem _ hc)
    refine ⟨⟨m'', .cons hstep hruns⟩, fun outcome ho => ?_⟩
    rcases List.mem_cons.mp ho with rfl | ho
    · exact hstep.admits hk hs hc
    · exact hrest outcome ho

end Refinement

/-- Notes, with a column that updates leave alone and a field that is not stored. -/
def noteFields : List (String × FieldKind × String) :=
  [("title", .text, "sql:\"title\" table:\"notes\""), ("id", .key, "sql:\"id\" key:\"true\""),
    ("author", .key, "sql:\"author\" update:\"false\""), ("due", .optional .time, "sql:\"due\""),
    ("draft", .text, "")]

def noteKey : MappedField := ⟨.plain "id", "id"⟩

def noteType : RecordType :=
  ⟨[(.plain "title", .text), (.plain "id", .key), (.plain "author", .key),
      (.plain "due", .optional .time), (.plain "draft", .text)],
    ⟨.plain "Note", [], "notes", some noteKey, [⟨.plain "title", "title"⟩,
      ⟨.plain "author", "author"⟩, ⟨.plain "due", "due"⟩], none, none, ["author"]⟩⟩

def notesTable : Table :=
  ⟨"notes", [⟨"id", .integer, false, false, .null⟩, ⟨"title", .text, true, false, .null⟩,
    ⟨"author", .integer, true, false, .null⟩, ⟨"due", .text, false, false, .null⟩], some 0, []⟩

/-- A handle to the table of notes. -/
def notesHandle : Handle := .ofConnection (.toDatabase [notesTable])

theorem ofTags?_note : ofTags? "Note" [] noteFields = some noteType := by
  have hm : RowMapping.ofFields (.ofText "Note") (tagsOf noteFields) =
      .ok (some noteType.mapping) := by decide +kernel
  simp only [tagsOf] at hm
  simp only [ofTags?, hm]
  exact congrArg (fun fields => some (RecordType.mk fields noteType.mapping)) rfl

theorem suitsTable_note : noteType.SuitsTable notesTable noteKey := by decide +kernel

theorem table_notesHandle : notesHandle.connection.database.table "notes" = .ok notesTable :=
  Sql.Database.table_singleton notesTable

/-- A note with a key and a title. -/
def noteOf (id : Int) (title : String) : Record :=
  [(.plain "title", .text title), (.plain "id", .integer id), (.plain "author", .integer 7),
    (.plain "due", .absent), (.plain "draft", .text "draft")]

theorem admits_noteOf {id : Int} (h : minInteger ≤ id ∧ id ≤ maxInteger) (title : String) :
    noteType.Admits (noteOf id title) where
  map_fst := rfl
  get f hf := by
    simp only [noteType, List.map_cons, List.map_nil, List.mem_cons, List.not_mem_nil,
      or_false] at hf
    rcases hf with rfl | rfl | rfl | rfl | rfl
    · exact trivial
    · exact h
    · exact ⟨by decide, by decide⟩
    · exact trivial
    · exact trivial

def noteCalls : List (Call × Record) :=
  [(.add, noteOf 0 "a"), (.save, noteOf 1 "b"), (.findById 1, noteOf 0 ""),
    (.replace, noteOf 1 "c"), (.delete, noteOf 1 ""), (.findSelf, noteOf 1 ""),
    (.list, noteOf 0 "")]

theorem admits_noteCalls : ∀ c ∈ noteCalls, c.1.IsProper ∧ noteType.Admits c.2 := by
  simp only [noteCalls, List.forall_mem_cons]
  exact ⟨⟨trivial, admits_noteOf (by decide) _⟩, ⟨trivial, admits_noteOf (by decide) _⟩,
    ⟨⟨by decide, by decide⟩, admits_noteOf (by decide) _⟩, ⟨trivial, admits_noteOf (by decide) _⟩,
    ⟨trivial, admits_noteOf (by decide) _⟩, ⟨trivial, admits_noteOf (by decide) _⟩,
    ⟨trivial, admits_noteOf (by decide) _⟩, fun _ hc => absurd hc List.not_mem_nil⟩

end TaggedRows.Store
