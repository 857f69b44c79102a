import TaggedRows.Proofs.Sql.Comparison
import TaggedRows.Proofs.Sql.Rows

/-!
# The constraints of a table with an integer key

- **Sound tables** (`Table.IsSound`): no number and no value of a unique column is taken twice.
- **Cells** (`Column.kept?`, `Table.cellsOf_eq_ok_iff`): what the columns hold for the values of a
  row, whether or not they may hold null.
- **Operations** (`Table.insert_eq_ok`, `Table.replace_eq_ok`, `Table.update_eq_ok`): what an
  operation has done if it succeeds. All of them keep a table sound (`IsSound.write`,
  `IsSound.update`, `IsSound.of_sublist`), and writing a row again changes nothing
  (`IsSound.replace_of_mem`).
- **The number 0** (`Table.freshId_eq_zero_iff`): it is chosen exactly after -1.
-/

namespace TaggedRows.Sql

namespace Table

variable {u u' : Table} {k : Nat} {id : Int} {cells values : List Value} {row r : Row}
  {fallsBack : Bool} {changes given : List (Nat × Value)}

/-! ## Rows that clash -/

/-- The cells repeat a value of the row in a unique column. -/
def Clashes (u : Table) (cells : List Value) (row : Row) : Prop :=
  ∃ i ∈ u.uniqueColumns, cells.getD i .null ≠ .null ∧
    (row.cells.getD i .null).compare (cells.getD i .null) = .eq

theorem Clashes.symm (h : u.Clashes r.cells row) : u.Clashes row.cells r := by
  obtain ⟨i, hi, hn, he⟩ := h
  refine ⟨i, hi, fun hnull => hn ?_, Value.compare_eq_symm he⟩
  rw [hnull] at he
  exact Value.eq_null_of_compare (Value.compare_eq_symm he)

theorem conflict?_eq_none {except : Option Int} {i : Nat} {v : Value} :
    u.conflict? except i v = none ↔ v ≠ .null → ∀ r ∈ u.rows, some r.id ≠ except →
      (r.cells.getD i .null).compare v ≠ .eq := by
  unfold conflict?
  split
  · next hn => simp [hn]
  · next hn => simp [hn]

theorem checkUnique_eq_ok {except : Option Int} {columns : List Nat} :
    u.checkUnique except columns cells = .ok () ↔
      ∀ i ∈ columns, u.conflict? except i (cells.getD i .null) = none := by
  refine forM_eq_ok_iff.trans (forall₂_congr fun i _ => ?_)
  cases u.conflict? except i (cells.getD i .null) <;> simp

theorem eraseConflicts_of_none {columns : List Nat}
    (h : ∀ i ∈ columns, u.conflict? none i (cells.getD i .null) = none) :
    u.eraseConflicts columns cells = u := by
  induction columns with
  | nil => rfl
  | cons i columns ih =>
    obtain ⟨hi, hrest⟩ := List.forall_mem_cons.mp h
    rw [eraseConflicts, List.foldl_cons, hi]
    exact ih hrest

/-! ## Sound tables -/

/-- The cells of a row with its number in the column of the key. -/
structure Fits (u : Table) (k : Nat) (row : Row) : Prop where
  hasKey : row.HasKey k
  length_eq : row.cells.length = u.columns.length
  minInteger_le : minInteger ≤ row.id
  le_maxInteger : row.id ≤ maxInteger

/-- What holds of a table with an integer key, whatever is done to it: no number and no value of a
unique column is taken twice. -/
structure IsSound (u : Table) (k : Nat) : Prop where
  key_eq : u.key = some k
  key_lt : k < u.columns.length
  ordered : IsOrdered u.rows
  fits : ∀ row ∈ u.rows, u.Fits k row
  distinct : ∀ a ∈ u.rows, ∀ b ∈ u.rows, a.id ≠ b.id → ¬ u.Clashes b.cells a

/-- The table with other rows. -/
def withRows (u : Table) (rows : List Row) : Table := { u with rows := rows }

theorem Fits.withRows (h : u.Fits k row) (rows : List Row) : (u.withRows rows).Fits k row :=
  ⟨h.hasKey, h.length_eq, h.minInteger_le, h.le_maxInteger⟩

namespace IsSound

theorem of_rows_eq_nil (hk : u.key = some k) (hlt : k < u.columns.length) (hr : u.rows = []) :
    u.IsSound k where
  key_eq := hk
  key_lt := hlt
  ordered := hr ▸ .nil
  fits := by simp [hr]
  distinct := by simp [hr]

variable (h : u.IsSound k)

include h

/-- Rows may be taken away. -/
theorem of_sublist {rows : List Row} (hs : rows.Sublist u.rows) : (u.withRows rows).IsSound k where
  key_eq := h.key_eq
  key_lt := h.key_lt
  ordered := h.ordered.sublist hs
  fits row hr := (h.fits row (hs.subset hr)).withRows rows
  distinct a ha b hb := h.distinct a (hs.subset ha) b (hs.subset hb)

/-- A row may be added that repeats nothing. -/
theorem put (hfit : u.Fits k row) (hid : ∀ r ∈ u.rows, r.id ≠ row.id)
    (hclash : ∀ r ∈ u.rows, ¬ u.Clashes row.cells r) : (u.put row).IsSound k where
  key_eq := h.key_eq
  key_lt := h.key_lt
  ordered := h.ordered.insertOrdered hid
  fits r hr := by
    rcases mem_insertOrdered.mp hr with rfl | hr
    · exact hfit.withRows _
    · exact (h.fits r hr).withRows _
  distinct a ha b hb hne := by
    have hsame : ∀ cells r, (u.put row).Clashes cells r ↔ u.Clashes cells r := fun _ _ => Iff.rfl
    rw [hsame]
    rcases mem_insertOrdered.mp ha with rfl | ha' <;>
      rcases mem_insertOrdered.mp hb with rfl | hb'
    · exact absurd rfl hne
    · exact fun hc => hclash b hb' hc.symm
    · exact hclash a ha'
    · exact h.distinct a ha' b hb' hne

/-- At most one row has a value in a unique column, so that none is left when it is taken away. -/
theorem eraseConflicts_singleton (cells : List Value) {i : Nat} (hi : i ∈ u.uniqueColumns) :
    ∃ rows, u.eraseConflicts [i] cells = u.withRows rows ∧ rows.Sublist u.rows ∧
      (cells.getD i .null ≠ .null →
        ∀ r ∈ rows, (r.cells.getD i .null).compare (cells.getD i .null) ≠ .eq) := by
  rw [eraseConflicts, List.foldl_cons, List.foldl_nil]
  cases hc : u.conflict? none i (cells.getD i .null) with
  | none =>
    exact ⟨u.rows, rfl, List.Sublist.refl _, fun hn r hr =>
      conflict?_eq_none.mp hc hn r hr nofun⟩
  | some s =>
    refine ⟨_, rfl, List.filter_sublist, fun hn r hr he => ?_⟩
    obtain ⟨hr, hid⟩ := List.mem_filter.mp hr
    rw [conflict?, if_neg hn] at hc
    have hs := List.mem_of_find?_eq_some hc
    have hse : (s.cells.getD i .null).compare (cells.getD i .null) = .eq := by
      simpa using List.find?_some hc
    refine h.distinct r hr s hs (by simpa using hid) ⟨i, hi, fun hnull => ?_, ?_⟩
    · rw [hnull] at hse
      exact hn (Value.eq_null_of_compare (Value.compare_eq_symm hse))
    · exact Value.compare_eq_trans he (Value.compare_eq_symm hse)

/-- The rows that are left do not have the cells in the columns. -/
theorem eraseConflicts_spec (cells : List Value) {columns : List Nat}
    (hc : ∀ i ∈ columns, i ∈ u.uniqueColumns) :
    ∃ rows, u.eraseConflicts columns cells = u.withRows rows ∧ rows.Sublist u.rows ∧
      ∀ i ∈ columns, cells.getD i .null ≠ .null →
        ∀ r ∈ rows, (r.cells.getD i .null).compare (cells.getD i .null) ≠ .eq := by
  induction columns generalizing u with
  | nil => exact ⟨u.rows, rfl, List.Sublist.refl _, by simp⟩
  | cons i columns ih =>
    obtain ⟨hi, hrest⟩ := List.forall_mem_cons.mp hc
    obtain ⟨rows, he, hs, hfree⟩ := h.eraseConflicts_singleton cells hi
    obtain ⟨rows', he', hs', hfree'⟩ := ih (h.of_sublist hs) hrest
    have hcons : u.eraseConflicts (i :: columns) cells =
        (u.eraseConflicts [i] cells).eraseConflicts columns cells := rfl
    refine ⟨rows', ?_, hs'.trans hs, fun j hj hn r hr => ?_⟩
    · rw [hcons, he, he']
      rfl
    · rcases List.mem_cons.mp hj with rfl | hj
      · exact hfree hn r (hs'.subset hr)
      · exact hfree' j hj hn r hr

end IsSound

/-! ## Values and changes -/

theorem length_newValues : (u.newValues given).length = u.columns.length := by
  simp [newValues]

theorem lookup_reverse_eq_none {i : Nat} (h : changes.lookup i = none) :
    changes.reverse.lookup i = none := by
  rw [List.lookup_eq_none_iff] at h ⊢
  exact fun p hp => h p (List.mem_reverse.mp hp)

end Table

variable [Engine]

/-! ## Cells -/

/-- What a column holds for a value, if it takes it. A null where none may be gives way to the
fallback of the column, or is refused. -/
def Column.kept? (c : Column) (fallsBack : Bool) (v : Value) : Option Value :=
  if c.isNotNull = true ∧ c.affinity.apply v = .null then
    if fallsBack = true ∧ c.fallback ≠ .null then some (c.affinity.apply c.fallback) else none
  else some (c.affinity.apply v)

/-- What is held without a fallback is held with one. -/
theorem Column.kept?_fallsBack {c : Column} {fallsBack : Bool} {v cell : Value}
    (h : c.kept? fallsBack v = some cell) : c.kept? true v = some cell := by
  cases fallsBack with
  | true => exact h
  | false =>
    unfold kept? at h ⊢
    split at h
    · simp at h
    · next hn => rw [if_neg hn, h]

namespace Table

variable {u u' : Table} {k : Nat} {id : Int} {cells values : List Value} {row r : Row}
  {fallsBack : Bool} {changes given : List (Nat × Value)}

theorem keptCell_eq_ok_iff {c : Column} {v cell : Value} {e : Fault} :
    (match c.affinity.apply v with
      | .null =>
        if !c.isNotNull then .ok .null
        else if fallsBack && c.fallback ≠ .null then .ok (c.affinity.apply c.fallback)
        else .error e
      | w => .ok w) = (.ok cell : Except Fault Value) ↔ c.kept? fallsBack v = some cell := by
  unfold Column.kept?
  cases hv : c.affinity.apply v with
  | null => cases hn : c.isNotNull <;> cases fallsBack <;> by_cases hf : c.fallback = .null <;>
      simp [hf]
  | _ => simp

theorem cellsOf_eq_ok_iff (hl : values.length = u.columns.length) :
    u.cellsOf fallsBack id values = .ok cells ↔ cells.length = u.columns.length ∧
      ∀ (i : Nat) c v cell, u.columns[i]? = some c → values[i]? = some v → cells[i]? = some cell →
        if u.key = some i then cell = .integer id else c.kept? fallsBack v = some cell := by
  unfold cellsOf
  rw [mapM_eq_ok_iff, List.length_zipIdx, List.length_zip, hl, Nat.min_self]
  refine and_congr_right fun _ => ?_
  constructor
  · intro h i c v cell hc hv hcell
    have hz : (u.columns.zip values)[i]? = some (c, v) := List.getElem?_zip_eq_some.mpr ⟨hc, hv⟩
    have hf := h i ((c, v), i) cell (by simp [hz]) hcell
    dsimp only at hf
    by_cases hk : u.key = some i
    · rw [if_pos hk] at hf ⊢
      exact (Except.ok.inj hf).symm
    · rw [if_neg hk] at hf ⊢
      exact keptCell_eq_ok_iff.mp hf
  · intro h i p cell hp hcell
    obtain ⟨⟨c, v⟩, j⟩ := p
    rw [List.getElem?_zipIdx, Option.map_eq_some_iff] at hp
    obtain ⟨_, hz, hp⟩ := hp
    cases hp
    obtain ⟨hc, hv⟩ := List.getElem?_zip_eq_some.mp hz
    have hf := h i c v cell hc hv hcell
    dsimp only
    rw [Nat.zero_add]
    by_cases hk : u.key = some i
    · rw [if_pos hk] at hf ⊢
      rw [hf]
    · rw [if_neg hk] at hf ⊢
      exact keptCell_eq_ok_iff.mpr hf

/-- The cells of a row do when it is written again in its place, with its number or without. -/
theorem cellsOf_again {given' : List (Nat × Value)} (hk : u.key = some k)
    (hg : ∀ i, i ≠ k → given.lookup i = given'.lookup i)
    (hc : u.cellsOf fallsBack id (u.newValues given) = .ok cells) :
    u.cellsOf true id (u.newValues given') = .ok cells := by
  rw [cellsOf_eq_ok_iff length_newValues] at hc ⊢
  refine ⟨hc.1, fun i c v cell hcolumn hv hcell => ?_⟩
  have hvalue : ∀ given : List (Nat × Value),
      (u.newValues given)[i]? = some ((given.lookup i).getD c.fallback) := by
    simp [newValues, hcolumn]
  have hf := hc.2 i c _ cell hcolumn (hvalue given) hcell
  rw [hvalue given'] at hv
  cases hv
  by_cases hi : u.key = some i
  · rwa [if_pos hi] at hf ⊢
  · have hne : i ≠ k := fun he => hi (he ▸ hk)
    rw [if_neg hi] at hf ⊢
    rw [← hg i hne]
    exact Column.kept?_fallsBack hf

/-- A changed row keeps the cells that no change is about. -/
theorem changedCells_eq_ok (hl : row.cells.length = u.columns.length)
    (h : u.changedCells row id changes = .ok cells) : cells.length = u.columns.length ∧
      ∀ (i : Nat) old cell, row.cells[i]? = some old → cells[i]? = some cell →
        if u.key = some i then cell = .integer id
        else changes.reverse.lookup i = none → cell = old := by
  unfold changedCells at h
  rw [mapM_eq_ok_iff, List.length_zipIdx, List.length_zip, hl, Nat.min_self] at h
  refine ⟨h.1, fun i old cell hold hcell => ?_⟩
  have hi : i < u.columns.length := by
    rw [← hl]
    exact (List.getElem?_eq_some_iff.mp hold).1
  have hz : (u.columns.zip row.cells)[i]? = some (u.columns[i], old) :=
    List.getElem?_zip_eq_some.mpr ⟨List.getElem?_eq_getElem hi, hold⟩
  have hf := h.2 i ((u.columns[i], old), i) cell (by simp [hz]) hcell
  dsimp only at hf
  by_cases hk : u.key = some i
  · rw [if_pos hk] at hf ⊢
    exact (Except.ok.inj hf).symm
  · rw [if_neg hk] at hf ⊢
    intro hn
    rw [hn] at hf
    exact (Except.ok.inj hf).symm

/-! ## What an operation that succeeds has done -/

theorem insert_eq_ok (h : u.insert values = .ok (u', id)) : ∃ cells,
    u.newId values = .ok id ∧ u.cellsOf false id values = .ok cells ∧
    (∀ r ∈ u.rows, r.id ≠ id) ∧ (∀ r ∈ u.rows, ¬ u.Clashes cells r) ∧
    u' = u.put ⟨id, cells⟩ := by
  unfold insert at h
  obtain ⟨id', hid, h⟩ := bind_eq_ok.mp h
  obtain ⟨cells, hcells, h⟩ := bind_eq_ok.mp h
  split at h
  · obtain ⟨_, he, -⟩ := bind_eq_ok.mp h
    cases he
  · next hfind =>
    obtain ⟨_, hunique, h⟩ := bind_eq_ok.mp h
    cases h
    refine ⟨cells, hid, hcells, fun r hr he => hfind ?_, fun r hr hclash => ?_, rfl⟩
    · rw [find?, List.find?_isSome]
      exact ⟨r, hr, decide_eq_true he⟩
    · obtain ⟨i, hi, hn, he⟩ := hclash
      exact conflict?_eq_none.mp (checkUnique_eq_ok.mp hunique i hi) hn r hr nofun he

theorem replace_eq_ok (h : u.replace values = .ok (u', id)) : ∃ cells,
    u.newId values = .ok id ∧ u.cellsOf true id values = .ok cells ∧
    u' = ((u.erase id).eraseConflicts u.uniqueColumns cells).put ⟨id, cells⟩ := by
  unfold replace at h
  obtain ⟨id', hid, h⟩ := bind_eq_ok.mp h
  obtain ⟨cells, hcells, h⟩ := bind_eq_ok.mp h
  cases h
  exact ⟨cells, hid, hcells, rfl⟩

/-- An update that leaves the key alone puts a row in the place of one with the same number. -/
theorem update_eq_ok (hk : u.key = some k) (hn : changes.lookup k = none)
    (h : u.update row changes = .ok u') : ∃ cells,
    u.changedCells row row.id changes = .ok cells ∧
    (∀ i ∈ u.uniqueColumns, (changes.lookup i).isSome →
      u.conflict? (some row.id) i (cells.getD i .null) = none) ∧
    u' = (u.erase row.id).put ⟨row.id, cells⟩ := by
  have hid : u.changedId row changes = .ok row.id := by
    unfold changedId
    rw [hk]
    dsimp only
    rw [lookup_reverse_eq_none hn]
  unfold update at h
  obtain ⟨id', hid', h⟩ := bind_eq_ok.mp h
  rw [hid] at hid'
  cases hid'
  obtain ⟨cells, hcells, h⟩ := bind_eq_ok.mp h
  simp only [ne_eq, not_true_eq_false, decide_false, Bool.false_and, Bool.false_eq_true, if_false,
    Bool.false_or] at h
  obtain ⟨_, hunique, h⟩ := bind_eq_ok.mp h
  cases h
  refine ⟨cells, hcells, fun i hi hs => ?_, rfl⟩
  exact checkUnique_eq_ok.mp hunique i (List.mem_filter.mpr ⟨hi, hs⟩)

/-! ## Operations on sound tables -/

namespace IsSound

variable (h : u.IsSound k)

include h

theorem fits_of_cellsOf (hl : values.length = u.columns.length)
    (hc : u.cellsOf fallsBack id values = .ok cells)
    (hrange : minInteger ≤ id ∧ id ≤ maxInteger) : u.Fits k ⟨id, cells⟩ := by
  obtain ⟨hlength, hcell⟩ := (cellsOf_eq_ok_iff hl).mp hc
  have hk := h.key_lt
  have hkv : k < values.length := hl ▸ hk
  have hkc : k < cells.length := hlength ▸ hk
  have hkey := hcell k _ _ _ (List.getElem?_eq_getElem hk) (List.getElem?_eq_getElem hkv)
    (List.getElem?_eq_getElem hkc)
  rw [if_pos h.key_eq] at hkey
  exact ⟨(List.getElem?_eq_getElem hkc).trans (congrArg some hkey), hlength, hrange.1, hrange.2⟩

/-- A row that has been written is in the table, with the cells that its values make. -/
theorem write {replaces : Bool}
    (hw : (if replaces then u.replace values else u.insert values) = .ok (u', id))
    (hl : values.length = u.columns.length)
    (hrange : ∀ id, u.newId values = .ok id → minInteger ≤ id ∧ id ≤ maxInteger) :
    ∃ cells, u.newId values = .ok id ∧ u.cellsOf replaces id values = .ok cells ∧
      ⟨id, cells⟩ ∈ u'.rows ∧ u'.IsSound k ∧ ∃ rows, u' = u.withRows rows := by
  cases replaces with
  | false =>
    obtain ⟨cells, hid, hc, hfree, hclash, rfl⟩ := insert_eq_ok hw
    exact ⟨cells, hid, hc, mem_insertOrdered.mpr (.inl rfl),
      h.put (h.fits_of_cellsOf hl hc (hrange id hid)) hfree hclash, _, rfl⟩
  | true =>
    obtain ⟨cells, hid, hc, rfl⟩ := replace_eq_ok hw
    have herase : (u.erase id).IsSound k := h.of_sublist List.filter_sublist
    obtain ⟨rows, he, hs, hfree⟩ := herase.eraseConflicts_spec cells fun i hi => hi
    have herased : (u.erase id).eraseConflicts u.uniqueColumns cells = u.withRows rows := he
    have hsound := herase.of_sublist hs
    have hfit : u.Fits k ⟨id, cells⟩ := h.fits_of_cellsOf hl hc (hrange id hid)
    rw [herased]
    refine ⟨cells, hid, hc, mem_insertOrdered.mpr (.inl rfl),
      hsound.put (hfit.withRows rows) ?_ ?_, _, rfl⟩
    · intro r hr
      simpa using (List.mem_filter.mp (hs.subset hr)).2
    · rintro r hr ⟨i, hi, hn, hclash⟩
      exact hfree i hi hn r hr hclash

/-- A cell without a change stays as it is. -/
theorem changedCells_getElem? (hfit : u.Fits k row)
    (hc : u.changedCells row row.id changes = .ok cells) {i : Nat} (hn : changes.lookup i = none) :
    cells[i]? = row.cells[i]? := by
  obtain ⟨hlength, hcell⟩ := changedCells_eq_ok hfit.length_eq hc
  by_cases hi : i < cells.length
  · have hold : i < row.cells.length := by rwa [hfit.length_eq, ← hlength]
    have hf := hcell i _ _ (List.getElem?_eq_getElem hold) (List.getElem?_eq_getElem hi)
    rw [List.getElem?_eq_getElem hi]
    by_cases hk : u.key = some i
    · rw [if_pos hk] at hf
      cases h.key_eq.symm.trans hk
      rw [hf, hfit.hasKey]
    · rw [if_neg hk] at hf
      rw [List.getElem?_eq_getElem hold, hf (lookup_reverse_eq_none hn)]
  · have hold : ¬ i < row.cells.length := by rwa [hfit.length_eq, ← hlength]
    rw [List.getElem?_eq_none (by omega), List.getElem?_eq_none (by omega)]

/-- An update that leaves the key alone keeps a table sound. -/
theorem update (hrow : row ∈ u.rows) (hn : changes.lookup k = none)
    (hu : u.update row changes = .ok u') : u'.IsSound k ∧ ∃ rows, u' = u.withRows rows := by
  obtain ⟨cells, hc, hunique, rfl⟩ := update_eq_ok h.key_eq hn hu
  have hfit := h.fits row hrow
  have hlength := (changedCells_eq_ok hfit.length_eq hc).1
  have hkey : cells[k]? = some (.integer row.id) :=
    (h.changedCells_getElem? hfit hc hn).trans hfit.hasKey
  have herase : (u.erase row.id).IsSound k := h.of_sublist List.filter_sublist
  refine ⟨herase.put ⟨hkey, hlength, hfit.minInteger_le, hfit.le_maxInteger⟩ ?_ ?_, _, rfl⟩
  · intro r hr
    simpa using (List.mem_filter.mp hr).2
  · rintro r hr ⟨i, hi, hnull, hclash⟩
    obtain ⟨hr, hid⟩ := List.mem_filter.mp hr
    have hne : r.id ≠ row.id := by simpa using hid
    cases hl : changes.lookup i with
    | some v =>
      have hnone := conflict?_eq_none.mp (hunique i hi (by rw [hl]; rfl)) hnull r hr
      exact hnone (fun he => hne (Option.some.inj he)) hclash
    | none =>
      -- The cell has not changed, so the row has clashed before.
      have hsame : cells.getD i .null = row.cells.getD i .null := by
        rw [List.getD_eq_getElem?_getD, h.changedCells_getElem? hfit hc hl,
          ← List.getD_eq_getElem?_getD]
      rw [hsame] at hnull hclash
      exact h.distinct r hr row hrow hne ⟨i, hi, hnull, hclash⟩

/-- Writing the cells of a row again changes nothing. -/
theorem replace_of_mem (hrow : row ∈ u.rows) (hid : u.newId values = .ok row.id)
    (hc : u.cellsOf true row.id values = .ok row.cells) :
    u.replace values = .ok (u, row.id) := by
  have hnone : ∀ i ∈ u.uniqueColumns,
      (u.erase row.id).conflict? none i (row.cells.getD i .null) = none := by
    refine fun i hi => conflict?_eq_none.mpr fun hnull r hr _ hclash => ?_
    obtain ⟨hr, hid⟩ := List.mem_filter.mp hr
    exact h.distinct r hr row hrow (by simpa using hid) ⟨i, hi, hnull, hclash⟩
  have hkept : (u.erase row.id).eraseConflicts u.uniqueColumns row.cells = u.erase row.id :=
    eraseConflicts_of_none hnone
  have hput : (u.erase row.id).put row = u :=
    congrArg u.withRows (h.ordered.insertOrdered_filter hrow)
  unfold replace
  refine bind_eq_ok.mpr ⟨_, hid, bind_eq_ok.mpr ⟨_, hc, ?_⟩⟩
  rw [hkept]
  exact congrArg (fun w => Except.ok (w, row.id)) hput

end IsSound

theorem freshId_eq_zero_iff (ho : IsOrdered u.rows) :
    u.freshId = 0 ↔ (u.rows.map Row.id).max? = some (-1) := by
  rw [freshId]
  cases hl : u.rows.getLast? with
  | none =>
    rw [List.getLast?_eq_none_iff.mp hl]
    simp
  | some s =>
    have hmax : (u.rows.map Row.id).max? = some s.id := by
      refine List.max?_eq_some_iff.mpr ⟨List.mem_map_of_mem (List.mem_of_getLast? hl), ?_⟩
      intro id hid
      obtain ⟨r, hr, rfl⟩ := List.mem_map.mp hid
      exact id_le_of_getLast? ho hl hr
    have hfree := Engine.spare_pos (u.rows.map Row.id)
    have hpos : 0 < maxInteger := by decide
    dsimp only
    rw [hmax, Option.some.injEq]
    split <;> omega

end Table

end TaggedRows.Sql
