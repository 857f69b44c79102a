import TaggedRows.Proofs.Record.Fields

/-!
# Cells read into records

A row is read cell by cell. The reading stops at the first cell that is missing or does not fit, and
the fields before it keep what was read.

- **Cells** (`CellFits`, `CellFault`): a cell is there and has a value for its field, or why not.
- **Prefixes** (`ReadsFirst`): the first fields hold their cells, and nothing else has changed.
- **Scans** (`Scanned`, `scanned_scanFields`): all fields hold their cells, or those before the
  first fault do.
- **Results** (`ofRows_eq_error`): one row that does not fit is a fault of the whole result.
-/

namespace TaggedRows.RecordType

open TaggedRows.Sql (Value)

variable (t : RecordType)

/-- The cell is there, and the field reads the value from it. -/
def CellFits (cells : List Value) (i : Nat) (e : MappedField) (v : FieldValue) : Prop :=
  ∃ cell, cells[i]? = some cell ∧ (t.kindOf e.field).ofSql cell = .ok v

/-- Why the field does not get a value from the cell. -/
inductive CellFault (labels : List String) (i : Nat) (e : MappedField) :
    Option Value → Sql.Fault → Prop
  | missing : CellFault labels i e none (.columnIndex i)
  | misfit {cell : Value} {m : Sql.Misfit} (h : (t.kindOf e.field).ofSql cell = .error m) :
    CellFault labels i e (some cell) (.misfit i (labels.getD i "") m)

/-- The second record is the first one with the first `n` cells in their fields. -/
structure ReadsFirst (cells : List Value) (stored : List MappedField) (n : Nat)
    (r r' : Record) : Prop where
  map_fst : r'.map (·.1) = r.map (·.1)
  fits : ∀ i e, i < n → stored[i]? = some e → t.CellFits cells i e (r'.get e.field)
  unchanged : ∀ f, (∀ i e, i < n → stored[i]? = some e → e.field ≠ f) → r'.get f = r.get f

/-- The outcomes of a scan. -/
inductive Scanned (labels : List String) (cells : List Value) (stored : List MappedField)
    (r : Record) : Record × Except Sql.Fault Unit → Prop
  /-- Every field has a cell that fits. -/
  | all {r' : Record} (h : t.ReadsFirst cells stored stored.length r r') :
    Scanned labels cells stored r (r', .ok ())
  /-- The cell of one field is the first that does not. -/
  | upTo {r' : Record} {j : Nat} {e : MappedField} {fault : Sql.Fault} (hj : stored[j]? = some e)
    (h : t.ReadsFirst cells stored j r r') (hf : t.CellFault labels j e cells[j]? fault) :
    Scanned labels cells stored r (r', .error fault)

variable {t} {labels : List String} {cell : Value} {cells : List Value} {stored : List MappedField}
  {e : MappedField} {v : FieldValue} {n : Nat} {r r' : Record}

theorem readsFirst_zero (cells : List Value) (stored : List MappedField) (r : Record) :
    t.ReadsFirst cells stored 0 r r :=
  ⟨rfl, fun _ _ hi => absurd hi (Nat.not_lt_zero _), fun _ _ => rfl⟩

/-- One more cell in front, in a field that no later cell is read into. -/
theorem ReadsFirst.cons (hv : (t.kindOf e.field).ofSql cell = .ok v)
    (hne : e.field ∉ stored.map (·.field)) (hmem : e.field ∈ r.map (·.1))
    (h : t.ReadsFirst cells stored n (r.set e.field v) r') :
    t.ReadsFirst (cell :: cells) (e :: stored) (n + 1) r r' where
  map_fst := h.map_fst.trans (r.map_fst_set v)
  fits i e' hi he' := by
    cases i with
    | zero =>
      obtain rfl : e = e' := by simpa using he'
      have hkept : r'.get e.field = v := by
        rw [h.unchanged e.field fun i e' _ he' hf =>
          hne (hf ▸ List.mem_map_of_mem (List.mem_of_getElem? he')), r.get_set_self v hmem]
      exact ⟨cell, rfl, by rw [hkept]; exact hv⟩
    | succ i =>
      obtain ⟨c, hc, hfit⟩ := h.fits i e' (Nat.lt_of_succ_lt_succ hi) (by simpa using he')
      exact ⟨c, by simpa using hc, hfit⟩
  unchanged f hf := by
    have hfe : f ≠ e.field := (hf 0 e (Nat.succ_pos n) rfl).symm
    rw [h.unchanged f fun i e' hi he' => hf (i + 1) e' (Nat.succ_lt_succ hi) (by simpa using he'),
      r.get_set_of_ne v hfe]

/-- A new object has the fields of its type. -/
theorem map_fst_fresh (t : RecordType) : t.fresh.map (·.1) = t.fields.map (·.1) := by
  simp [fresh, Function.comp_def]

/-! ## Scans -/

/-- A scan from some cell on, by induction on the fields that are left. -/
theorem scanFields_cases (hn : (stored.map (·.field)).Nodup)
    (hmem : ∀ e ∈ stored, e.field ∈ r.map (·.1)) (labels : List String) (cells : List Value)
    (i : Nat) :
    (∃ r', t.scanFields labels cells r i stored = (r', .ok ()) ∧
      t.ReadsFirst (cells.drop i) stored stored.length r r') ∨
    ∃ r' j e fault, t.scanFields labels cells r i stored = (r', .error fault) ∧
      stored[j]? = some e ∧ t.ReadsFirst (cells.drop i) stored j r r' ∧
      t.CellFault labels (i + j) e cells[i + j]? fault := by
  induction stored generalizing r i with
  | nil => exact .inl ⟨r, rfl, readsFirst_zero _ _ r⟩
  | cons e stored ih =>
    obtain ⟨hne, hn⟩ := List.nodup_cons.mp hn
    obtain ⟨he, hrest⟩ := List.forall_mem_cons.mp hmem
    rw [scanFields]
    cases hc : cells[i]? with
    | none =>
      exact .inr ⟨r, 0, e, _, rfl, rfl, readsFirst_zero _ _ r, by simpa [hc] using .missing⟩
    | some cell =>
      cases hv : (t.kindOf e.field).ofSql cell with
      | error m =>
        simp only [hv]
        exact .inr ⟨r, 0, e, _, rfl, rfl, readsFirst_zero _ _ r, by simpa [hc] using .misfit hv⟩
      | ok v =>
        have hdrop : cells.drop i = cell :: cells.drop (i + 1) := by
          obtain ⟨hi, rfl⟩ := List.getElem?_eq_some_iff.mp hc
          exact List.drop_eq_getElem_cons hi
        simp only [hv, hdrop]
        have hset : ∀ e' ∈ stored, e'.field ∈ (r.set e.field v).map (·.1) := by simpa using hrest
        rcases ih hn hset (i + 1) with
          ⟨r', hx, hread⟩ | ⟨r', j, e', fault, hx, hj, hread, hfault⟩
        · exact .inl ⟨r', hx, hread.cons hv hne he⟩
        · refine .inr ⟨r', j + 1, e', fault, hx, by simpa using hj, hread.cons hv hne he, ?_⟩
          rwa [← Nat.add_assoc, Nat.add_right_comm]

/-- Every cell up to the first fault is read, and nothing else is changed. -/
theorem scanned_scanFields (hn : (stored.map (·.field)).Nodup)
    (hmem : ∀ e ∈ stored, e.field ∈ r.map (·.1)) (labels : List String) (cells : List Value) :
    t.Scanned labels cells stored r (t.scanFields labels cells r 0 stored) := by
  rcases scanFields_cases hn hmem labels cells 0 with
    ⟨r', hx, hread⟩ | ⟨r', j, e, fault, hx, hj, hread, hfault⟩
  · rw [hx]
    exact .all hread
  · rw [hx]
    exact .upTo hj hread (by simpa using hfault)

/-- A scan of cells that all fit does not stop. -/
theorem Scanned.of_fits {x : Record × Except Sql.Fault Unit}
    (h : t.Scanned labels cells stored r x)
    (hfits : ∀ i e, stored[i]? = some e → ∃ v, t.CellFits cells i e v) :
    ∃ r', x = (r', .ok ()) ∧ t.ReadsFirst cells stored stored.length r r' := by
  cases h with
  | all hread => exact ⟨_, rfl, hread⟩
  | upTo hj _ hfault =>
    obtain ⟨v, cell, hcell, hv⟩ := hfits _ _ hj
    rw [hcell] at hfault
    cases hfault with
    | misfit herror => rw [hv] at herror; cases herror

/-! ## Results -/

/-- There are no records if one row does not fit. -/
theorem ofRows_eq_error {rows : List (List Value)} {cells : List Value} (hc : cells ∈ rows)
    {r : Record} {fault : Sql.Fault} (h : t.scan labels cells t.fresh = (r, .error fault)) :
    ∃ fault', t.ofRows labels rows = .error fault' := by
  induction rows with
  | nil => simp at hc
  | cons cells' rows ih =>
    cases hr : t.scan labels cells' t.fresh with
    | mk r' result =>
      cases result with
      | error fault' => exact ⟨fault', by simp only [ofRows, hr]⟩
      | ok _ =>
        have hc : cells ∈ rows := by
          rcases List.mem_cons.mp hc with rfl | hc
          · simp [h] at hr
          · exact hc
        obtain ⟨fault', hx⟩ := ih hc
        refine ⟨fault', ?_⟩
        simp only [ofRows, hr, hx]
        rfl

end TaggedRows.RecordType
