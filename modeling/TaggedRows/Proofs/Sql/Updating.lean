import TaggedRows.Proofs.Sql.Constraints
import TaggedRows.Proofs.Sql.Running

/-!
# Updates of some rows

An update writes the rows that satisfy its condition. All others stay as they are, and no row comes
or goes.

- **Rows** (`Table.exists_of_update`, `Effect.exists_of_updateRows`): what one row after another
  leaves behind.
- **Plans** (`Effect.exists_of_update`): what a whole update leaves behind.
- **Keys** (`Table.hasKeyCell`): the rows with a key.
-/

namespace TaggedRows.Sql

variable [Engine] {u u' : Table} {row : Row} {rows : List Row} {parameters : List Value}

omit [Engine] in
theorem IsOrdered.eq_of_id_eq (h : IsOrdered rows) {a b : Row} (ha : a ∈ rows) (hb : b ∈ rows)
    (hid : a.id = b.id) : a = b := by
  have ha' : a ∈ rows.filter fun r => decide (r.id = b.id) :=
    List.mem_filter.mpr ⟨ha, decide_eq_true hid⟩
  rw [h.filter_eq_singleton hb] at ha'
  exact List.mem_singleton.mp ha'

namespace Table

omit [Engine] in
theorem length_insertOrdered (row : Row) (rows : List Row) :
    (insertOrdered row rows).length = rows.length + 1 := by
  induction rows with
  | nil => rfl
  | cons r rows ih =>
    rw [insertOrdered]
    split
    · rfl
    · rw [List.length_cons, ih, List.length_cons]

/-- An update of one row puts a row in its place, which may have another number if that is free. -/
theorem exists_of_update (ho : IsOrdered u.rows) (hrow : row ∈ u.rows)
    {changes : List (Nat × Value)} (h : u.update row changes = .ok u') :
    ∃ rows, u' = u.withRows rows ∧ IsOrdered rows ∧ rows.length = u.rows.length ∧
      ∀ r ∈ u.rows, r ≠ row → r ∈ rows := by
  obtain ⟨id, -, h⟩ := bind_eq_ok.mp h
  obtain ⟨cells, -, h⟩ := bind_eq_ok.mp h
  dsimp only at h
  split at h
  · cases h
  next hfree =>
  obtain ⟨-, -, h⟩ := bind_eq_ok.mp h
  cases h
  have hothers : ∀ r ∈ u.rows, r ≠ row → r.id ≠ row.id := fun r hr hne hid =>
    hne (ho.eq_of_id_eq hr hrow hid)
  refine ⟨insertOrdered ⟨id, cells⟩ (u.rows.filter (·.id ≠ row.id)), rfl,
    (ho.filter _).insertOrdered fun r hr hid => ?_, ?_, fun r hr hne => ?_⟩
  · obtain ⟨hr, hne⟩ := List.mem_filter.mp hr
    rw [Bool.and_eq_true, decide_eq_true_eq, not_and, Bool.not_eq_true,
      Option.isSome_eq_false_iff, Option.isNone_iff_eq_none] at hfree
    have hnew : id ≠ row.id := fun he => of_decide_eq_true hne (hid.trans he)
    exact List.find?_eq_none.mp (hfree hnew) r hr (decide_eq_true hid)
  · have hone := congrArg List.length (ho.filter_eq_singleton hrow)
    have hsplit := u.rows.length_eq_countP_add_countP fun r => decide (r.id = row.id)
    rw [List.countP_eq_length_filter, hone, List.countP_eq_length_filter, List.length_singleton,
      Nat.add_comm] at hsplit
    rw [length_insertOrdered, hsplit]
    simp
  · exact mem_insertOrdered.mpr (.inr (List.mem_filter.mpr ⟨hr, decide_eq_true (hothers r hr hne)⟩))

end Table

namespace Effect

theorem exists_of_updateRows {changes : List (Nat × Term)} (ho : IsOrdered u.rows)
    (hsub : ∀ r ∈ rows, r ∈ u.rows) (hn : rows.Nodup)
    (h : updateRows changes parameters u rows = .ok u') :
    ∃ rows', u' = u.withRows rows' ∧ IsOrdered rows' ∧ rows'.length = u.rows.length ∧
      ∀ r ∈ u.rows, r ∉ rows → r ∈ rows' := by
  induction rows generalizing u with
  | nil =>
    cases h
    exact ⟨u'.rows, rfl, ho, rfl, fun r hr _ => hr⟩
  | cons row rows ih =>
    obtain ⟨u₁, hupdate, h⟩ := bind_eq_ok.mp h
    obtain ⟨hrow, hrest⟩ := List.forall_mem_cons.mp hsub
    obtain ⟨hfirst, hn⟩ := List.nodup_cons.mp hn
    obtain ⟨rows₁, rfl, ho₁, hlength₁, hmem₁⟩ := Table.exists_of_update ho hrow hupdate
    -- The rows still to be written have not been touched.
    have hsub₁ : ∀ r ∈ rows, r ∈ rows₁ := fun r hr =>
      hmem₁ r (hrest r hr) fun he => hfirst (he ▸ hr)
    obtain ⟨rows', rfl, ho', hlength, hmem⟩ := ih ho₁ hsub₁ hn h
    refine ⟨rows', rfl, ho', hlength.trans hlength₁, fun r hr hnot => ?_⟩
    obtain ⟨hne, hnot⟩ := not_or.mp (mt List.mem_cons.mpr hnot)
    exact hmem r (hmem₁ r hr hne) hnot

/-- An update keeps the rows that do not satisfy its condition, and the number of rows. -/
theorem exists_of_update {db : Database} {tableName : String} {changes : List (Nat × Term)}
    {condition : Option Term} {effect : Effect} (ht : db.table tableName = .ok u)
    (ho : IsOrdered u.rows)
    (h : ofPlan db parameters (.update tableName changes condition) = some (.ok effect)) :
    ∃ rows, effect.database = db.setTable (u.withRows rows) ∧ rows.length = u.rows.length ∧
      ∀ r ∈ u.rows, Term.holds condition parameters r = false → r ∈ rows := by
  obtain ⟨t, ht', h⟩ := bind_eq_ok.mp (Option.some.inj h)
  rw [ht] at ht'
  cases ht'
  obtain ⟨u', hrows, h⟩ := bind_eq_ok.mp h
  cases h
  have hnodup : (u.rows.filter (Term.holds condition parameters)).Nodup :=
    ((ho.filter _).imp fun hlt he => absurd (congrArg Row.id he) (Int.ne_of_lt hlt))
  obtain ⟨rows, rfl, -, hlength, hmem⟩ := exists_of_updateRows ho
    (fun r hr => (List.mem_filter.mp hr).1) hnodup hrows
  refine ⟨rows, rfl, hlength, fun r hr hnot => hmem r hr fun hin => ?_⟩
  rw [(List.mem_filter.mp hin).2] at hnot
  cases hnot

end Effect

/-! ## Keys -/

/-- The row has the key: it satisfies the condition that its cell in the column `k` is the
number. -/
def Table.hasKeyCell (u : Table) (k : Nat) (id : Int) (row : Row) : Bool :=
  Term.holds (some (Plan.keyCondition u k 0)) [.integer id] row

variable {k n : Nat} {id : Int}

theorem Table.holds_keyCondition (hp : parameters[n]? = some (.integer id)) (row : Row) :
    Term.holds (some (Plan.keyCondition u k n)) parameters row = u.hasKeyCell k id row := by
  have hparam : parameters.getD n .null = .integer id := by
    rw [List.getD_eq_getElem?_getD, hp, Option.getD_some]
  have heval : Term.eval ⟨parameters, row, 0⟩ (Plan.keyCondition u k n) =
      Term.eval ⟨[.integer id], row, 0⟩ (Plan.keyCondition u k 0) := by
    rw [Plan.keyCondition, Plan.keyCondition, Term.eval, Term.eval, Term.eval, Term.eval, Term.eval,
      Term.eval, hparam]
    rfl
  rw [hasKeyCell, Term.holds, Term.holds, heval]

end TaggedRows.Sql
