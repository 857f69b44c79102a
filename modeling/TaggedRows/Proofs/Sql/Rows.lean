import TaggedRows.Proofs.Attempts
import TaggedRows.Sql.Table

/-!
# The rows of a table with an integer key

- **Order** (`IsOrdered`): the rows are in the order of their numbers, and no number is taken twice.
  Rows are put in their place (`IsOrdered.insertOrdered`), and one at most has a given number
  (`IsOrdered.filter_eq_singleton`).
- **New numbers** (`Table.freshId_ne`, `Table.chosenId_cases`): a new row gets a number that is
  free and within the range of integers, as long as there is a positive one.
- **Cells** (`Table.cellsOf_newValues`, `Table.changedCells_eq`): the cells of a new or changed row.
- **Operations** (`Table.insert_eq`, `Table.replace_eq`, `Table.update_eq`).
-/

namespace TaggedRows.Sql

/-! ## Order -/

/-- The rows are in the order of their numbers. -/
def IsOrdered (rows : List Row) : Prop := rows.Pairwise fun a b => a.id < b.id

section Order

variable {rows : List Row} {row r : Row} {id : Int}

theorem mem_insertOrdered : r ∈ Table.insertOrdered row rows ↔ r = row ∨ r ∈ rows := by
  induction rows with
  | nil => simp [Table.insertOrdered]
  | cons s rows ih =>
    rw [Table.insertOrdered]
    split
    · simp
    · rw [List.mem_cons, ih, List.mem_cons]
      exact or_left_comm

namespace IsOrdered

theorem insertOrdered (h : IsOrdered rows) (hn : ∀ r ∈ rows, r.id ≠ row.id) :
    IsOrdered (Table.insertOrdered row rows) := by
  induction rows with
  | nil => exact List.pairwise_singleton ..
  | cons s rows ih =>
    obtain ⟨hs, hrows⟩ := List.pairwise_cons.mp h
    have hne := hn s (List.mem_cons_self ..)
    rw [Table.insertOrdered]
    split
    · next hle =>
      refine List.pairwise_cons.mpr ⟨fun r hr => ?_, h⟩
      rcases List.mem_cons.mp hr with rfl | hr
      · omega
      · have hlt := hs r hr
        omega
    · next hlt =>
      refine List.pairwise_cons.mpr ⟨fun r hr => ?_, ih hrows fun r hr => hn r ?_⟩
      · rcases mem_insertOrdered.mp hr with rfl | hr
        · omega
        · exact hs r hr
      · exact List.mem_cons_of_mem _ hr

theorem filter (h : IsOrdered rows) (p : Row → Bool) : IsOrdered (rows.filter p) :=
  List.Pairwise.filter p h

theorem filter_eq_singleton (h : IsOrdered rows) (hr : row ∈ rows) :
    rows.filter (fun r => decide (r.id = row.id)) = [row] := by
  induction rows with
  | nil => cases hr
  | cons s rows ih =>
    obtain ⟨hs, hrows⟩ := List.pairwise_cons.mp h
    rcases List.mem_cons.mp hr with rfl | hr
    · have hrest : rows.filter (fun r => decide (r.id = row.id)) = [] := by
        refine List.filter_eq_nil_iff.mpr fun r hm => ?_
        have hlt := hs r hm
        simp only [decide_eq_true_eq]
        omega
      rw [List.filter_cons_of_pos (by simp), hrest]
    · have hlt := hs row hr
      rw [List.filter_cons_of_neg (by simp only [decide_eq_true_eq]; omega)]
      exact ih hrows hr

/-- A row that is taken away and put back is in its place again. -/
theorem insertOrdered_filter (h : IsOrdered rows)
    (hr : row ∈ rows) : Table.insertOrdered row (rows.filter (·.id ≠ row.id)) = rows := by
  induction rows with
  | nil => cases hr
  | cons s rows ih =>
    obtain ⟨hs, hrows⟩ := List.pairwise_cons.mp h
    rcases List.mem_cons.mp hr with rfl | hr
    · have hrest : rows.filter (·.id ≠ row.id) = rows :=
        List.filter_eq_self.mpr fun r hr => by
          have hlt := hs r hr
          simp only [decide_eq_true_eq]
          omega
      rw [List.filter_cons_of_neg (by simp), hrest]
      cases rows with
      | nil => rfl
      | cons r rows => exact if_pos (Int.le_of_lt (hs r List.mem_cons_self))
    · have hlt := hs row hr
      rw [List.filter_cons_of_pos (by simp only [decide_eq_true_eq]; omega), Table.insertOrdered,
        if_neg (by omega), ih hrows hr]

end IsOrdered

end Order

/-! ## New numbers -/

/-- The row has its number in the column at a place. -/
def Row.HasKey (k : Nat) (row : Row) : Prop := row.cells[k]? = some (.integer row.id)

variable [Engine]

/-- The column may hold what becomes of a value in it. -/
def Column.Accepts (c : Column) (v : Value) : Prop :=
  c.isNotNull = true → c.affinity.apply v ≠ .null

namespace Table

/-- The values of a new row, some of which are given. -/
def newValues (u : Table) (given : List (Nat × Value)) : List Value :=
  u.columns.zipIdx.map fun p => (given.lookup p.2).getD p.1.fallback

variable {u : Table} {rows : List Row} {id : Int}

omit [Engine] in
theorem id_le_of_getLast? {r s : Row} (h : IsOrdered rows) (hl : rows.getLast? = some s)
    (hr : r ∈ rows) : r.id ≤ s.id := by
  obtain ⟨init, rfl⟩ := List.getLast?_eq_some_iff.mp hl
  rcases List.mem_append.mp hr with hr | hr
  · have hlt := (List.pairwise_append.mp h).2.2 r hr s (List.mem_singleton.mpr rfl)
    omega
  · exact Int.le_of_eq (congrArg Row.id (List.mem_singleton.mp hr))

theorem freshId_ne (h : IsOrdered u.rows) : ∀ r ∈ u.rows, r.id ≠ u.freshId := by
  intro r hr
  rw [freshId]
  split
  · next hl =>
    rw [List.getLast?_eq_none_iff.mp hl] at hr
    cases hr
  · next s hl =>
    split
    · have hle := id_le_of_getLast? h hl hr
      omega
    · exact fun he => Engine.spare_notMem (u.rows.map Row.id) (he ▸ List.mem_map_of_mem hr)

theorem minInteger_le_freshId (hr : ∀ r ∈ u.rows, minInteger ≤ r.id) : minInteger ≤ u.freshId := by
  have hmin : minInteger ≤ 1 := by decide
  rw [freshId]
  split
  · exact hmin
  · next s hl =>
    split
    · have hs := hr s (List.mem_of_getLast? hl)
      omega
    · exact Int.le_trans hmin (Engine.spare_pos _)

/-- A new row gets a number that is free and within the range of integers, unless all positive
ones are taken. -/
theorem chosenId_cases (hr : ∀ r ∈ u.rows, minInteger ≤ r.id) :
    (u.chosenId = .ok u.freshId ∧ minInteger ≤ u.freshId ∧ u.freshId ≤ maxInteger) ∨
    (u.chosenId = .error .full ∧ ∀ i, 1 ≤ i → i ≤ maxInteger → ∃ r ∈ u.rows, r.id = i) := by
  rw [chosenId]
  split
  · next hle => exact .inl ⟨rfl, minInteger_le_freshId hr, hle⟩
  · next hgt =>
    refine .inr ⟨rfl, fun i h1 hi => ?_⟩
    have hmax : 1 ≤ maxInteger := by decide
    rw [freshId] at hgt
    split at hgt
    · exact absurd hmax hgt
    · split at hgt
      · omega
      · have hlt := Int.not_le.mp hgt
        exact List.mem_map.mp (Engine.exists_of_lt_spare _ hlt i h1 hi)

/-! ## Cells -/

variable {k : Nat} {given : List (Nat × Value)}

/-- The cells of a new row with a number, some of whose values are given. -/
def newCells (u : Table) (k : Nat) (id : Int) (given : List (Nat × Value)) : List Value :=
  u.columns.zipIdx.map fun p =>
    if p.2 = k then .integer id else p.1.affinity.apply ((given.lookup p.2).getD p.1.fallback)

/-- The cells of a row, some of which are changed. -/
def updatedCells (u : Table) (k : Nat) (row : Row) (given : List (Nat × Value)) : List Value :=
  (u.columns.zip row.cells).zipIdx.map fun p =>
    if p.2 = k then .integer row.id
    else ((given.lookup p.2).map p.1.1.affinity.apply).getD p.1.2

theorem newCells_getElem? {i : Nat} {c : Column} (hc : u.columns[i]? = some c) :
    (u.newCells k id given)[i]? = some (if i = k then .integer id
      else c.affinity.apply ((given.lookup i).getD c.fallback)) := by
  simp [newCells, hc]

theorem updatedCells_getElem? {i : Nat} {c : Column} {row : Row} {old : Value}
    (hc : u.columns[i]? = some c) (ho : row.cells[i]? = some old) :
    (u.updatedCells k row given)[i]? = some (if i = k then .integer row.id
      else ((given.lookup i).map c.affinity.apply).getD old) := by
  have hz : (u.columns.zip row.cells)[i]? = some (c, old) :=
    List.getElem?_zip_eq_some.mpr ⟨hc, ho⟩
  simp [updatedCells, hz]

/-- All columns besides the one at a place may hold what they get in a new row. -/
def AcceptsNew (u : Table) (k : Nat) (given : List (Nat × Value)) : Prop :=
  ∀ i c, u.columns[i]? = some c → i ≠ k →
    c.Accepts ((given.lookup i).getD c.fallback)

theorem cellsOf_newValues (hk : u.key = some k) (ha : u.AcceptsNew k given) (fallsBack : Bool) :
    u.cellsOf fallsBack id (u.newValues given) = .ok (u.newCells k id given) := by
  have hzip : (u.columns.zip (u.newValues given)).zipIdx =
      u.columns.zipIdx.map fun p => ((p.1, (given.lookup p.2).getD p.1.fallback), p.2) := by
    refine List.ext_getElem? fun i => ?_
    cases hc : u.columns[i]? with
    | none =>
      have hi : u.columns.length ≤ i := List.getElem?_eq_none_iff.mp hc
      simp [newValues, hi]
    | some c =>
      have hz : (u.columns.zip (u.newValues given))[i]? =
          some (c, (given.lookup i).getD c.fallback) :=
        List.getElem?_zip_eq_some.mpr ⟨hc, by simp [newValues, hc]⟩
      simp [hc, hz]
  unfold cellsOf
  rw [hzip]
  refine List.mapM_map.trans (mapM_eq_ok_map fun p hp => ?_)
  obtain ⟨c, i⟩ := p
  have hc : u.columns[i]? = some c := List.mem_zipIdx_iff_getElem?.mp hp
  dsimp only [Function.comp_apply]
  by_cases hi : i = k
  · rw [if_pos (hk.trans (congrArg some hi.symm)), if_pos hi]
  · rw [if_neg (fun h => hi (Option.some.inj (hk.symm.trans h)).symm), if_neg hi]
    have hac := ha i c hc hi
    split
    · next hnull =>
      have hn : c.isNotNull = false := Bool.eq_false_iff.mpr fun h => hac h hnull
      rw [hn, hnull]
      rfl
    · rfl

/-- The columns of the changed cells may hold what they get. -/
def AcceptsChange (u : Table) (given : List (Nat × Value)) : Prop :=
  ∀ i c v, u.columns[i]? = some c → given.lookup i = some v → c.Accepts v

theorem changedCells_eq (hk : u.key = some k) {row : Row} (ha : u.AcceptsChange given)
    (hrev : ∀ i, given.reverse.lookup i = given.lookup i) :
    u.changedCells row row.id given = .ok (u.updatedCells k row given) := by
  unfold changedCells
  refine mapM_eq_ok_map fun p hp => ?_
  obtain ⟨⟨c, old⟩, i⟩ := p
  have hz := List.mem_zipIdx_iff_getElem?.mp hp
  have hc : u.columns[i]? = some c := (List.getElem?_zip_eq_some.mp hz).1
  dsimp only
  by_cases hi : i = k
  · rw [if_pos (hk.trans (congrArg some hi.symm)), if_pos hi]
  · rw [if_neg (fun h => hi (Option.some.inj (hk.symm.trans h)).symm), if_neg hi, hrev]
    cases hv : given.lookup i with
    | none => rfl
    | some v =>
      have hac := ha i c v hc hv
      have hok : ¬ (c.isNotNull && decide (c.affinity.apply v = .null)) = true := by
        intro h
        rw [Bool.and_eq_true, decide_eq_true_eq] at h
        exact hac h.1 h.2
      dsimp only
      rw [if_neg hok]
      rfl

/-! ## Operations -/

theorem newId_of_none (hk : u.key = some k) {c : Column} (hc : u.columns[k]? = some c)
    (hf : c.fallback = .null) (hg : given.lookup k = none) :
    u.newId (u.newValues given) = u.chosenId := by
  have hv : (u.newValues given).getD k .null = .null := by
    simp [newValues, List.getD_eq_getElem?_getD, hc, hg, hf]
  unfold newId
  rw [hk]
  dsimp only
  rw [hv]

theorem newId_of_some (hk : u.key = some k) {c : Column} (hc : u.columns[k]? = some c)
    (hg : given.lookup k = some (.integer id)) : u.newId (u.newValues given) = .ok id := by
  have hv : (u.newValues given).getD k .null = .integer id := by
    simp [newValues, List.getD_eq_getElem?_getD, hc, hg]
  unfold newId
  rw [hk]
  dsimp only
  rw [hv]
  rfl

/-- Without unique columns a row is only told from others by its key. -/
theorem insert_eq (hk : u.key = some k) (hu : u.uniqueColumns = []) (ho : IsOrdered u.rows)
    (hid : u.newId (u.newValues given) = .ok u.freshId) (ha : u.AcceptsNew k given) :
    u.insert (u.newValues given) =
      .ok (u.put ⟨u.freshId, u.newCells k u.freshId given⟩, u.freshId) := by
  have hfree : u.find? u.freshId = none :=
    List.find?_eq_none.mpr fun r hr => by simpa using freshId_ne ho r hr
  unfold insert
  refine bind_eq_ok.mpr ⟨_, hid, bind_eq_ok.mpr ⟨_, cellsOf_newValues hk ha false, ?_⟩⟩
  rw [hfree, hu]
  rfl

/-- A row without a number is refused. -/
theorem insert_error {e : Fault} (hid : u.newId (u.newValues given) = .error e) :
    u.insert (u.newValues given) = .error e := by
  rw [insert, hid]
  rfl

theorem replace_error {e : Fault} (hid : u.newId (u.newValues given) = .error e) :
    u.replace (u.newValues given) = .error e := by
  rw [replace, hid]
  rfl

theorem replace_eq (hk : u.key = some k) (hu : u.uniqueColumns = [])
    (hid : u.newId (u.newValues given) = .ok id) (ha : u.AcceptsNew k given) :
    u.replace (u.newValues given) = .ok ((u.erase id).put ⟨id, u.newCells k id given⟩, id) := by
  unfold replace
  refine bind_eq_ok.mpr ⟨_, hid, bind_eq_ok.mpr ⟨_, cellsOf_newValues hk ha true, ?_⟩⟩
  rw [hu]
  rfl

theorem update_eq (hk : u.key = some k) (hu : u.uniqueColumns = []) {row : Row}
    (hg : given.lookup k = none) (hrev : ∀ i, given.reverse.lookup i = given.lookup i)
    (ha : u.AcceptsChange given) :
    u.update row given = .ok ((u.erase row.id).put ⟨row.id, u.updatedCells k row given⟩) := by
  have hid : u.changedId row given = .ok row.id := by
    unfold changedId
    rw [hk]
    dsimp only
    rw [hrev, hg]
  unfold update
  refine bind_eq_ok.mpr ⟨_, hid, bind_eq_ok.mpr ⟨_, changedCells_eq hk ha hrev, ?_⟩⟩
  rw [hu]
  simp
  rfl

end Table

end TaggedRows.Sql
