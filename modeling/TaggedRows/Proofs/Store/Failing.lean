import TaggedRows.Proofs.Accessor.Contract
import TaggedRows.Proofs.Sql.Failing
import TaggedRows.Proofs.Store.Refinement

/-!
# Calls that fail

A call that fails changes neither a table nor its object. What it would have sent without a key, or
without anything to update, is never sent.

- **Traces** (`Untouched`): what a call leaves as it was.
- **Statements** (`keeps_of_execute_error`): one that fails leaves no trace.
- **Calls** (`untouched_of_error`): nor does a call, unless it fails while it reads.
- **Texts** (`OnlySends`, `onlySends_perform`): what a call sends to the database.
-/

namespace TaggedRows.Store

open TaggedRows.Store.Action
open TaggedRows.Sql (Argument)
open TaggedRows.Source (StructDecl)

/-! ## Traces -/

/-- All tables behind the handle are as they were. -/
structure Handle.Keeps (h h' : Handle) : Prop where
  connection : h.connection.Keeps h'.connection
  isPoisoned_eq : h'.isPoisoned = h.isPoisoned

theorem Handle.Keeps.refl (h : Handle) : h.Keeps h := ⟨.refl _, rfl⟩

/-- All tables are as they were, and so is the object. -/
structure Untouched (s s' : State) : Prop where
  handle : s.1.Keeps s'.1
  record_eq : s'.2 = s.2

theorem Untouched.refl (s : State) : Untouched s s := ⟨.refl _, rfl⟩

/-- A type has a key column if it has a key. -/
theorem keyField_eq_empty_iff {decl : StructDecl} {m : RowMapping}
    (hm : (mappingOfStruct decl).result = .ok (some m)) :
    m.access.keyField = "" ↔ m.key = none := by
  obtain ⟨-, -, -, -, -, hcolumns⟩ := describes_of_mappingOfStruct hm
  rw [RowMapping.access, RowMapping.keyColumn]
  cases hkey : m.key with
  | none => simp
  | some key => simp [hcolumns key (by simp [RowMapping.selected, hkey])]

section Actions

variable {σ τ α β : Type}

/-! ## Actions -/

/-- What follows a look at the object runs on that object. -/
theorem theRecord_bind (f : Record → Action State α) (s : State) : (theRecord >>= f) s = f s.2 s :=
  rfl

/-- An answer that is put together from a result comes from the same run. -/
theorem bind_pure_eq (x : Action σ α) (f : α → β) (s : σ) :
    (x >>= fun a => pure (f a)) s = ⟨(x s).log, (x s).state, (x s).result.map f⟩ := by
  simp only [bind, Action.bind, pure, Action.pure]
  rcases x s with ⟨log, s, e | a⟩
  · rfl
  · simp [Except.map]

/-- A query is refused with the lock, or it is run on the connection. -/
theorem locked_cases (use : Sql.Connection → Sql.Connection × Except Sql.Fault α) (h : Handle) :
    locked use h = ⟨[], h, .error .poisoned⟩ ∨
      (∃ c fault, locked use h = ⟨[], { h with connection := c }, .error (.database fault)⟩) ∨
      ∃ c a, locked use h = ⟨[], { h with connection := c }, .ok a⟩ := by
  unfold locked
  split
  · exact .inl rfl
  · split
    · exact .inr (.inr ⟨_, _, rfl⟩)
    · exact .inr (.inl ⟨_, _, rfl⟩)

/-! ## Texts -/

/-- The text that is sent to the database, if the entry is about one. -/
def LogEntry.query? : LogEntry → Option String
  | .statement query _ | .manyRows query _ | .loading query _ | .listing query _ | .ids query _
  | .value query _ | .batch query => some query
  | .saveSkipped _ => none

/-- What a call may send: no text with a key column where there is none, and no update that sets
nothing. -/
inductive Sends (a : TableAccess) : Call → String → Prop
  | add : Sends a .add (Query.insert a)
  | replaceNew : Sends a .replace (Query.replace a.table a.insertFields)
  | replace : a.keyField ≠ "" → Sends a .replace (Query.replace a.table a.selectFields)
  | save : a.keyField ≠ "" → Query.setParams a.updateFields ≠ "" → Sends a .save (Query.update a)
  | delete : a.keyField ≠ "" → Sends a .delete (Query.delete a)
  | deleteById {id : Int} : a.keyField ≠ "" → Sends a (.deleteById id) (Query.delete a)
  | findById {id : Int} : a.keyField ≠ "" → Sends a (.findById id) (Query.selectByKey a)
  | findSelf : a.keyField ≠ "" → Sends a .findSelf (Query.selectByKey a)
  | list : Sends a .list (Query.select a "")

theorem setParams_ne_empty {fields : String} (h : fields ≠ "") : Query.setParams fields ≠ "" := by
  have hset : ∀ c ∈ (Query.columnsOf fields).map (· ++ "=?"), c ≠ "" := by
    intro c hc
    obtain ⟨column, -, rfl⟩ := List.mem_map.mp hc
    simp
  rw [Query.setParams, ne_eq, Query.intercalate_eq_empty_iff hset, List.map_eq_nil_iff,
    Query.columnsOf, if_neg h, Text.piecesOf, List.map_eq_nil_iff]
  exact Text.pieces_ne_nil _ _

/-- The action only sends texts that satisfy a condition. -/
def OnlySends (p : String → Prop) (x : Action σ α) : Prop :=
  ∀ s, ∀ entry ∈ (x s).log, ∀ q, entry.query? = some q → p q

namespace OnlySends

variable {p : String → Prop} {x : Action σ α}

theorem of_log_eq_nil (h : ∀ s, (x s).log = []) : OnlySends p x := by
  intro s entry hentry
  rw [h s] at hentry
  cases hentry

theorem pure (a : α) : OnlySends p (Pure.pure a : Action σ α) := of_log_eq_nil fun _ => rfl

theorem fail (e : Failure) : OnlySends p (Action.fail e : Action σ α) :=
  of_log_eq_nil fun _ => rfl

theorem setRecord (r : Record) : OnlySends p (Store.setRecord r) := of_log_eq_nil fun _ => rfl

theorem theRecord : OnlySends p Store.theRecord := of_log_eq_nil fun _ => rfl

theorem note {entry : LogEntry} (h : ∀ q, entry.query? = some q → p q) :
    OnlySends p (Action.note entry : Action σ Unit) := by
  intro s other hother
  rw [List.mem_singleton.mp hother]
  exact h

theorem bind (hx : OnlySends p x) {f : α → Action σ β} (hf : ∀ a, OnlySends p (f a)) :
    OnlySends p (x >>= f) := by
  intro s entry hentry
  simp only [Bind.bind, Action.bind] at hentry
  split at hentry
  · next hrun => exact hx s entry (by rw [hrun]; exact hentry)
  · next hrun =>
    rcases List.mem_append.mp hentry with hentry | hentry
    · exact hx s entry (by rw [hrun]; exact hentry)
    · exact hf _ _ entry hentry

theorem onFirst (hx : OnlySends p x) : OnlySends p (Action.onFirst x : Action (σ × τ) α) :=
  fun s => hx s.1

theorem locked (use : Sql.Connection → Sql.Connection × Except Sql.Fault α) :
    OnlySends p (Store.locked use) :=
  of_log_eq_nil fun h => by
    obtain hl | ⟨c, fault, hl⟩ | ⟨c, a, hl⟩ := locked_cases use h <;> rw [hl]

end OnlySends

end Actions

section Calls

variable [Sql.Engine] {t : RecordType} {h : Handle} {r : Record} {α : Type} {query : String}
  {arguments : List Argument} {e : Failure}

/-! ## Statements -/

/-- A statement is refused with the lock, or it fails or succeeds on the connection. -/
theorem execute_cases (query : String) (arguments : List Argument) (h : Handle) :
    execute query arguments h =
        ⟨[.statement query arguments.length], h, .error .poisoned⟩ ∨
    (∃ c fault, h.connection.execute query arguments = (c, .error fault) ∧
      execute query arguments h = ⟨[.statement query arguments.length],
        { h with connection := c }, .error (.database fault)⟩) ∨
    ∃ c n, h.connection.execute query arguments = (c, .ok n) ∧
      execute query arguments h = ⟨[.statement query arguments.length],
        { h with connection := c }, .ok ⟨n, c.lastId⟩⟩ := by
  by_cases hp : h.isPoisoned = true
  · exact .inl (by simp [execute, note, locked, bind, Action.bind, hp])
  · right
    rcases hx : h.connection.execute query arguments with ⟨c, fault | n⟩
    · exact .inl ⟨c, fault, rfl, by simp [execute, note, locked, bind, Action.bind, hp, hx]⟩
    · exact .inr ⟨c, n, rfl, by simp [execute, note, locked, bind, Action.bind, hp, hx]⟩

/-- A statement that fails leaves no trace. -/
theorem keeps_of_execute_error (he : (execute query arguments h).result = .error e) :
    h.Keeps (execute query arguments h).state := by
  obtain hx | ⟨c, fault, hc, hx⟩ | ⟨c, n, -, hx⟩ := execute_cases query arguments h
  · rw [hx]
    exact .refl h
  · rw [hx]
    exact ⟨Sql.Connection.keeps_of_execute_error hc, rfl⟩
  · rw [hx] at he
    cases he

/-- A deletion that fails, or that deletes nothing, leaves no trace. -/
theorem keeps_of_deleteById_error {id : Int} (he : (deleteById t id h).result = .error e) :
    h.Keeps (deleteById t id h).state := by
  by_cases hkey : t.mapping.access.keyField = ""
  · have hfail : deleteById t id h = ⟨[], h, .error (.noKey t.mapping.access.table)⟩ := by
      simp [deleteById, fail, hkey]
    rw [hfail]
    exact .refl h
  · obtain hx | ⟨c, fault, hc, hx⟩ | ⟨c, n, hc, hx⟩ :=
      execute_cases (Query.delete t.mapping.access) [.value (.integer id)] h
    · simp only [deleteById, hkey, if_false, bind, Action.bind, hx]
      exact .refl h
    · simp only [deleteById, hkey, if_false, bind, Action.bind, hx]
      exact ⟨Sql.Connection.keeps_of_execute_error hc, rfl⟩
    · simp only [deleteById, hkey, if_false, bind, Action.bind, hx] at he ⊢
      by_cases hn : n = 0
      · rw [hn] at hc
        simp only [hn, if_true, fail]
        exact ⟨Sql.Connection.keeps_of_execute_delete hc, rfl⟩
      · simp only [hn, if_false] at he
        cases he

/-- Reading fails in the database, or with the lock and without a trace. -/
theorem load_error_cases {s : State} (he : (load t query arguments s).result = .error e) :
    (∃ fault, e = .database fault) ∨
      e = .poisoned ∧ Untouched s (load t query arguments s).state := by
  obtain hl | ⟨c, fault, hl⟩ | ⟨c, ⟨labels, rows⟩, hl⟩ :=
    locked_cases (fun c => c.query query arguments) s.1
  · simp only [load, onFirst, note, bind, Action.bind, hl] at he ⊢
    exact .inr ⟨(Except.error.inj he).symm, .refl s⟩
  · simp only [load, onFirst, note, bind, Action.bind, hl] at he
    exact .inl ⟨fault, (Except.error.inj he).symm⟩
  · cases rows with
    | nil =>
      simp only [load, onFirst, note, bind, Action.bind, hl] at he
      cases he
    | cons cells rows =>
      simp only [load, onFirst, note, bind, Action.bind, hl] at he
      rcases hscan : t.scan labels cells s.2 with ⟨r, fault | _⟩
      · rw [hscan] at he
        exact .inl ⟨fault, (Except.error.inj he).symm⟩
      · rw [hscan] at he
        cases he

/-! ## Calls -/

/-- Storing the key of an object fails only with the statement before. -/
theorem untouched_of_write {f : Changed → Record}
    (he : ((onFirst (execute query arguments) >>= fun c => setRecord (f c)) (h, r)).result =
      .error e) : Untouched (h, r)
        ((onFirst (execute query arguments) >>= fun c => setRecord (f c)) (h, r)).state := by
  cases hx : (execute query arguments h).result with
  | error e' =>
    have hkeeps := keeps_of_execute_error hx
    simp only [bind, Action.bind, onFirst, hx]
    exact ⟨hkeeps, rfl⟩
  | ok c =>
    simp only [bind, Action.bind, onFirst, setRecord, hx] at he
    cases he

theorem untouched_of_add_error (he : (add t (h, r)).result = .error e) :
    Untouched (h, r) (add t (h, r)).state :=
  untouched_of_write he

theorem untouched_of_replace_error (he : (replace t (h, r)).result = .error e) :
    Untouched (h, r) (replace t (h, r)).state := by
  rw [replace, theRecord_bind] at he ⊢
  dsimp only at he ⊢
  split at he
  · next hnew =>
    rw [if_pos hnew]
    exact untouched_of_write he
  · next hnew =>
    rw [if_neg hnew]
    exact untouched_of_write he

/-- A save is refused, has nothing to do, or is its update. -/
theorem save_eq (t : RecordType) (h : Handle) (r : Record) : save t (h, r) =
    if t.mapping.access.keyField = "" then ⟨[], (h, r), .error (.noKey t.mapping.access.table)⟩
    else if t.mapping.access.updateFields = "" then
      ⟨[.saveSkipped t.mapping.access.table], (h, r), .ok ()⟩
    else
      let run := execute (Query.update t.mapping.access) (t.updateValues r) h
      ⟨run.log, (run.state, r), run.result.map fun _ => ()⟩ := by
  rw [save, theRecord_bind]
  dsimp only
  split
  · rfl
  · split
    · rfl
    · exact bind_pure_eq (onFirst (execute (Query.update t.mapping.access) (t.updateValues r)))
        (fun _ => ()) (h, r)

theorem untouched_of_save_error (he : (save t (h, r)).result = .error e) :
    Untouched (h, r) (save t (h, r)).state := by
  rw [save_eq] at he ⊢
  split at he
  · next hkey =>
    rw [if_pos hkey]
    exact .refl _
  · next hkey =>
    rw [if_neg hkey]
    split at he
    · cases he
    · next hupdate =>
      rw [if_neg hupdate]
      exact ⟨keeps_of_execute_error (map_eq_error.mp he), rfl⟩

theorem untouched_of_delete_error (he : (delete t (h, r)).result = .error e) :
    Untouched (h, r) (delete t (h, r)).state :=
  ⟨keeps_of_deleteById_error he, rfl⟩

/-- A record that is looked up by its key is not the object. -/
theorem findById_error_cases {id : Int} (he : (findById t id h).result = .error e) :
    (∃ fault, e = .database fault) ∨ h.Keeps (findById t id h).state := by
  unfold findById at he ⊢
  split at he
  · next hkey =>
    rw [if_pos hkey]
    exact .inr (.refl h)
  · next hkey =>
    rw [if_neg hkey]
    unfold loadFresh at he ⊢
    rcases hload : load t (Query.selectByKey t.mapping.access) [.value (.integer id)]
      (h, t.fresh) with ⟨log, ⟨h', r'⟩, e' | found⟩
    · rw [hload] at he
      cases he
      have hcases := load_error_cases (congrArg Run.result hload)
      rw [hload] at hcases
      exact hcases.imp_right fun hpoisoned => hpoisoned.2.handle
    · rw [hload] at he
      cases he

theorem findSelf_error_cases (he : (findSelf t (h, r)).result = .error e) :
    (∃ fault, e = .database fault) ∨ Untouched (h, r) (findSelf t (h, r)).state := by
  rw [findSelf, theRecord_bind] at he ⊢
  dsimp only at he ⊢
  split at he
  · next hkey =>
    rw [if_pos hkey]
    exact .inr (.refl _)
  · next hkey =>
    rw [if_neg hkey]
    split at he
    · next hzero =>
      rw [if_pos hzero]
      exact .inr (.refl _)
    · next hzero =>
      rw [if_neg hzero]
      exact (load_error_cases he).imp_right And.right

/-- The call writes to the database. -/
def Call.Writes : Call → Prop
  | .add | .replace | .save | .delete | .deleteById _ => True
  | .findById _ | .findSelf | .list => False

/-- A call that fails leaves no trace, unless it fails while it reads. -/
theorem untouched_of_error {c : Call} (hc : c ≠ .list)
    (he : (perform t c (h, r)).result = .error e)
    (hreads : ∀ fault, e = .database fault → c.Writes) :
    Untouched (h, r) (perform t c (h, r)).state := by
  cases c with
  | add =>
    rw [perform, bind_pure_eq] at he ⊢
    exact untouched_of_add_error (map_eq_error.mp he)
  | replace =>
    rw [perform, bind_pure_eq] at he ⊢
    exact untouched_of_replace_error (map_eq_error.mp he)
  | save =>
    rw [perform, bind_pure_eq] at he ⊢
    exact untouched_of_save_error (map_eq_error.mp he)
  | delete =>
    rw [perform, bind_pure_eq] at he ⊢
    exact untouched_of_delete_error (map_eq_error.mp he)
  | deleteById id =>
    rw [perform, bind_pure_eq] at he ⊢
    exact ⟨keeps_of_deleteById_error (map_eq_error.mp he), rfl⟩
  | findById id =>
    rw [perform, bind_pure_eq] at he ⊢
    obtain ⟨fault, hfault⟩ | hkeeps := findById_error_cases (map_eq_error.mp he)
    · exact (hreads fault hfault).elim
    · exact ⟨hkeeps, rfl⟩
  | findSelf =>
    rw [perform, bind_pure_eq] at he ⊢
    obtain ⟨fault, hfault⟩ | huntouched := findSelf_error_cases (map_eq_error.mp he)
    · exact (hreads fault hfault).elim
    · exact huntouched
  | list => exact absurd rfl hc

/-! ## Keys -/

/-- The call needs the key of its type. -/
def Call.NeedsKey : Call → Prop
  | .save | .delete | .deleteById _ | .findById _ | .findSelf => True
  | .add | .replace | .list => False

/-- Without a key column, a call that needs one stops before it does anything. -/
theorem perform_of_keyless (hkey : t.mapping.access.keyField = "") {c : Call} (hc : c.NeedsKey)
    (s : State) : perform t c s = ⟨[], s, .error (.noKey t.mapping.table)⟩ := by
  obtain ⟨h, r⟩ := s
  cases c with
  | save => simp [perform, save, theRecord, fail, bind, Action.bind, hkey]; rfl
  | delete =>
    simp [perform, delete, deleteById, theRecord, fail, onFirst, bind, Action.bind, hkey]
    rfl
  | deleteById id => simp [perform, deleteById, fail, onFirst, bind, Action.bind, hkey]; rfl
  | findById id => simp [perform, findById, fail, onFirst, bind, Action.bind, hkey]; rfl
  | findSelf => simp [perform, findSelf, theRecord, fail, bind, Action.bind, hkey]; rfl
  | _ => exact hc.elim

/-- The key of an object is missed exactly if the type has one and it is 0. -/
theorem findSelf_eq_keyMissing_iff {table : String} :
    (findSelf t (h, r)).result = .error (.keyMissing table) ↔
      t.mapping.access.keyField ≠ "" ∧ t.keyOf r = 0 ∧ table = t.mapping.table := by
  by_cases hkey : t.mapping.access.keyField = ""
  · have hself : findSelf t (h, r) = ⟨[], (h, r), .error (.noKey t.mapping.table)⟩ := by
      simp [findSelf, theRecord, fail, bind, Action.bind, hkey]
      rfl
    simp [hself, hkey]
  · by_cases hzero : t.keyOf r = 0
    · rw [findSelf_of_zero hkey hzero]
      simp [hkey, hzero, eq_comm]
    · simp only [hzero, false_and, and_false, iff_false]
      intro he
      rw [findSelf, theRecord_bind] at he
      dsimp only at he
      rw [if_neg hkey, if_neg hzero] at he
      obtain ⟨fault, hfault⟩ | ⟨hpoisoned, -⟩ := load_error_cases he
      · cases hfault
      · cases hpoisoned

/-! ## What calls send -/

namespace OnlySends

variable {p : String → Prop}

theorem execute (h : p query) : OnlySends p (Store.execute query arguments) :=
  (note fun _ hq => Option.some.inj hq ▸ h).bind fun _ => locked _

theorem load (h : p query) : OnlySends p (Store.load t query arguments) := by
  have hnote : OnlySends p (Action.note (.loading query arguments.length) : Action Handle Unit) :=
    note fun _ hq => Option.some.inj hq ▸ h
  refine hnote.onFirst.bind fun _ => (locked _).onFirst.bind fun result => ?_
  split
  · exact pure false
  · refine of_log_eq_nil fun s => ?_
    dsimp only
    split <;> rfl

theorem loadFresh (h : p query) : OnlySends p (Store.loadFresh t query arguments) := by
  intro s entry hentry
  have hsends : OnlySends p (Store.load t query arguments) := load h
  have hload := hsends (s, t.fresh) entry
  unfold Store.loadFresh at hentry
  split at hentry
  · next hrun => exact hload (by rw [hrun]; exact hentry)
  · next hrun => exact hload (by rw [hrun]; exact hentry)

end OnlySends

variable (t)

theorem onlySends_deleteById {p : String → Prop} (id : Int)
    (h : t.mapping.access.keyField ≠ "" → p (Query.delete t.mapping.access)) :
    OnlySends p (deleteById t id) := by
  unfold deleteById
  dsimp only
  split
  · exact .fail _
  · next hkey =>
    refine (OnlySends.execute (h hkey)).bind fun changed => ?_
    split
    · exact .fail _
    · exact .pure ()

/-- A call sends what it may send, and nothing else. -/
theorem onlySends_perform (c : Call) : OnlySends (Sends t.mapping.access c) (perform t c) := by
  cases c with
  | add =>
    refine OnlySends.bind (OnlySends.theRecord.bind fun r => ?_) fun _ => .pure _
    exact (OnlySends.execute Sends.add).onFirst.bind fun changed => .setRecord _
  | replace =>
    refine OnlySends.bind (OnlySends.theRecord.bind fun r => ?_) fun _ => .pure _
    dsimp only
    split
    · exact (OnlySends.execute Sends.replaceNew).onFirst.bind fun changed => .setRecord _
    · next hkey =>
      refine OnlySends.bind (OnlySends.onFirst ?_) fun changed => .setRecord _
      exact .execute (Sends.replace fun h => hkey (.inl h))
  | save =>
    refine OnlySends.bind (OnlySends.theRecord.bind fun r => ?_) fun _ => .pure _
    dsimp only
    split
    · exact .fail _
    · next hkey =>
      split
      · exact .note fun q hq => by cases hq
      · next hupdate =>
        refine OnlySends.bind (OnlySends.onFirst ?_) fun _ => .pure ()
        exact .execute (Sends.save hkey (setParams_ne_empty hupdate))
  | delete =>
    refine OnlySends.bind (OnlySends.theRecord.bind fun r => ?_) fun _ => .pure _
    exact (onlySends_deleteById t _ Sends.delete).onFirst
  | deleteById id =>
    refine OnlySends.bind (OnlySends.onFirst ?_) fun _ => .pure _
    exact onlySends_deleteById t id Sends.deleteById
  | findById id =>
    refine OnlySends.bind (OnlySends.onFirst ?_) fun _ => .pure _
    unfold findById
    dsimp only
    split
    · exact .fail _
    · next hkey => exact .loadFresh (Sends.findById hkey)
  | findSelf =>
    refine OnlySends.bind (OnlySends.theRecord.bind fun r => ?_) fun _ => .pure _
    dsimp only
    split
    · exact .fail _
    · next hkey =>
      split
      · exact .fail _
      · exact .load (Sends.findSelf hkey)
  | list =>
    refine OnlySends.bind (OnlySends.onFirst ?_) fun _ => .pure _
    refine OnlySends.bind (.note fun q hq => ?_) fun _ => .locked _
    exact Option.some.inj hq ▸ Sends.list

/-! ## Failed calls -/

variable {t}

/-- Whatever the tables and the object are, a call that fails leaves all of them as they are, unless
it fails while it reads. For a type without a key, a call that needs one is refused before anything
is sent; for a type with one, only a call on an object with the key 0 is missed. Nothing is ever
sent with an empty key column, and no update that sets nothing. -/
theorem failed_calls_change_nothing {decl : StructDecl} {m : RowMapping}
    (hm : (mappingOfStruct decl).result = .ok (some m)) {path : List Ident}
    (ht : t.mapping = m.inModules path) (h : Handle) (r : Record) :
    (∀ c e, c ≠ .list → (perform t c (h, r)).result = .error e →
      (∀ fault, e = .database fault → c.Writes) → Untouched (h, r) (perform t c (h, r)).state) ∧
    (t.mapping.key = none → ∀ c : Call, c.NeedsKey →
      perform t c (h, r) = ⟨[], (h, r), .error (.noKey t.mapping.table)⟩) ∧
    ((∃ table, (findSelf t (h, r)).result = .error (.keyMissing table)) ↔
      t.mapping.key ≠ none ∧ t.keyOf r = 0) ∧
    (t.mapping.key ≠ none → t.keyOf r = 0 →
      findSelf t (h, r) = ⟨[], (h, r), .error (.keyMissing t.mapping.table)⟩) ∧
    ∀ c, ∀ entry ∈ (perform t c (h, r)).log, ∀ q, entry.query? = some q →
      Sends t.mapping.access c q := by
  have hkey : t.mapping.access.keyField = "" ↔ t.mapping.key = none := by
    have hstruct := keyField_eq_empty_iff hm
    rw [ht]
    exact hstruct
  refine ⟨fun c e hc he hreads => untouched_of_error hc he hreads, fun hnone c hc => ?_, ?_,
    fun hsome hzero => ?_, fun c => onlySends_perform t c (h, r)⟩
  · exact perform_of_keyless (hkey.mpr hnone) hc (h, r)
  · simp only [findSelf_eq_keyMissing_iff, ne_eq, hkey]
    exact ⟨fun ⟨_, hsome, hzero, _⟩ => ⟨hsome, hzero⟩, fun ⟨hsome, hzero⟩ => ⟨_, hsome, hzero, rfl⟩⟩
  · exact findSelf_of_zero (hkey.not.mpr hsome) hzero

end Calls

/-- A table of notes, where no text is missing and none stands twice. -/
def filledNotes : Sql.Table :=
  ⟨"notes", [⟨"id", .integer, false, false, .null⟩, ⟨"text", .text, true, true, .null⟩,
    ⟨"author", .integer, false, false, .null⟩], some 0,
    [⟨1, [.integer 1, .text "a", .integer 7]⟩, ⟨2, [.integer 2, .text "b", .integer 7]⟩]⟩

/-- The table refuses a replacement of a row that has lost its text, and a save that repeats the
text of another row. An object without a key is not looked for. -/
theorem failed_calls_change_nothing_note :
    ∃ m t h textless repeated, (mappingOfStruct noteDecl).result = .ok (some m) ∧
      t.mapping = m.inModules [] ∧ h.connection.database = [filledNotes] ∧
      t.keyOf textless = 1 ∧ t.keyOf repeated = 2 ∧
      (perform t .replace (h, textless)).result =
        .error (.database (.notNull "notes" "text")) ∧
      Untouched (h, textless) (perform t .replace (h, textless)).state ∧
      (perform t .save (h, repeated)).result = .error (.database (.unique "notes" "text")) ∧
      Untouched (h, repeated) (perform t .save (h, repeated)).state ∧
      findSelf t (h, t.fresh) = ⟨[], (h, t.fresh), .error (.keyMissing "notes")⟩ := by
  let m : RowMapping := ⟨.plain "Note", [], "notes", some ⟨.plain "id", "id"⟩,
    [⟨.plain "text", "text"⟩, ⟨.plain "author", "author"⟩], some (.plain "author"), none,
    ["author"]⟩
  let t : RecordType :=
    ⟨[(.plain "text", .optional .text), (.plain "id", .key), (.plain "author", .key)], m⟩
  let h : Handle := .ofConnection (.toDatabase [filledNotes])
  let textless : Record :=
    [(.plain "text", .absent), (.plain "id", .integer 1), (.plain "author", .integer 7)]
  let repeated : Record :=
    [(.plain "text", .text "a"), (.plain "id", .integer 2), (.plain "author", .integer 7)]
  have hm : (mappingOfStruct noteDecl).result = .ok (some m) := by decide +kernel
  have ht : t.mapping = m.inModules [] := rfl
  have hreplace : (perform t .replace (h, textless)).result =
      .error (.database (.notNull "notes" "text")) := by decide +kernel
  have hsave : (perform t .save (h, repeated)).result =
      .error (.database (.unique "notes" "text")) := by decide +kernel
  have hmissing := (failed_calls_change_nothing hm ht h t.fresh).2.2.2.1
  exact ⟨m, t, h, textless, repeated, hm, ht, rfl, rfl, rfl, hreplace,
    (failed_calls_change_nothing hm ht h textless).1 .replace _ (by simp) hreplace
      fun _ _ => trivial, hsave,
    (failed_calls_change_nothing hm ht h repeated).1 .save _ (by simp) hsave fun _ _ => trivial,
    hmissing (by simp [t, m]) rfl⟩

end TaggedRows.Store
