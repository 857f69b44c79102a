import TaggedRows.Proofs.Attempts
import TaggedRows.Proofs.Sql.Reading
import TaggedRows.Sql.Connection

/-!
# The plans of the statements for a type

Some columns of one table are given by their names, and `place` says where in the table they are.

- **Values by place** (`assigned`, `lookup_assigned`): the value of a parameter reaches the column
  that stands in its place of the list.
- **Plans** (`ofStatement_insert`, `ofStatement_update`, `ofStatement_delete`,
  `ofStatement_select`): every name of a statement is found in the table.
- **The key** (`resolve_keyCondition`): a condition on the key is one on its place.
-/

namespace TaggedRows.Sql

variable {ι : Type} {u : Table} {place : ι → Nat} {v : ι → Value} {l : List ι} {x : ι}

/-! ## Values by place -/

/-- The values of some columns with the places of the columns. -/
def assigned (place : ι → Nat) (v : ι → Value) (l : List ι) : List (Nat × Value) :=
  l.map fun x => (place x, v x)

theorem lookup_assigned_of_ne {i : Nat} (h : ∀ x ∈ l, place x ≠ i) :
    (assigned place v l).lookup i = none := by
  rw [List.lookup_eq_none_iff]
  intro p hp
  obtain ⟨x, hx, rfl⟩ := List.mem_map.mp hp
  exact bne_iff_ne.mpr (h x hx).symm

theorem lookup_assigned (hp : ∀ x ∈ l, ∀ y ∈ l, place x = place y → x = y) (hx : x ∈ l) :
    (assigned place v l).lookup (place x) = some (v x) := by
  induction l with
  | nil => cases hx
  | cons y l ih =>
    rw [assigned, List.map_cons]
    by_cases he : place x = place y
    · rw [hp x hx y (List.mem_cons_self ..) he]
      exact List.lookup_cons_self
    · have hne : x ≠ y := fun hxy => he (congrArg place hxy)
      have hb : (place x == place y) = false := beq_eq_false_iff_ne.mpr he
      rw [List.lookup_cons, hb]
      exact ih (fun a ha b hb => hp a (List.mem_cons_of_mem _ ha) b (List.mem_cons_of_mem _ hb))
        ((List.mem_cons.mp hx).resolve_left hne)

theorem lookup_map_snd {α β : Type} (f : α → β) (i : Nat) (ps : List (Nat × α)) :
    (ps.map fun p => (p.1, f p.2)).lookup i = (ps.lookup i).map f := by
  induction ps with
  | nil => rfl
  | cons p ps ih =>
    obtain ⟨j, a⟩ := p
    rw [List.map_cons, List.lookup_cons, List.lookup_cons]
    cases i == j with
    | true => rfl
    | false => exact ih

/-- The columns with their parameters. -/
def parameterChanges (place : ι → Nat) (l : List ι) : List (Nat × Term) :=
  l.zipIdx.map fun p => (place p.1, .parameter p.2)

/-- The parameters of some columns stand for the values that are bound for them. -/
theorem eval_parameterChanges [Engine] (place : ι → Nat) (v : ι → Value) (l : List ι)
    (more : List Value) (row : Row) (n : Nat) :
    ((parameterChanges place l).map fun p =>
      (p.1, Term.eval ⟨l.map v ++ more, row, n⟩ p.2)) = assigned place v l := by
  have hgen : ∀ (before : List ι), ((l.zipIdx before.length).map fun p =>
      (place p.1, ((before ++ l).map v ++ more).getD p.2 .null)) = assigned place v l := by
    induction l with
    | nil => exact fun _ => rfl
    | cons x l ih =>
      intro before
      have hrest := ih (before ++ [x])
      rw [List.append_assoc, List.length_append] at hrest
      rw [List.zipIdx_cons, List.map_cons]
      refine List.cons_eq_cons.mpr ⟨?_, hrest⟩
      simp
  rw [parameterChanges, List.map_map]
  exact hgen []

/-! ## Plans -/

namespace Plan

variable {db : Database} {text : List Char} {tableName : String} {name : ι → String}

theorem writtenColumn_eq {n : String} {i : Nat} (h : u.columnIndex? n = some i) :
    writtenColumn? u n = some i := by
  rw [writtenColumn?, h, Option.some_or]

theorem cellOf_eq {n : String} {i : Nat} (h : u.columnIndex? n = some i) :
    Scope.cellOf? u n = some ⟨some i, ((u.columns[i]?).map Column.affinity).getD .none⟩ := by
  have hf : u.columns.findIdx? (sameName ·.name n) = some i := h
  rw [Scope.cellOf?, hf]

/-- What a new row gets in each column, when some columns have parameters. -/
def sources (u : Table) (place : ι → Nat) (l : List ι) : List (Option Term) :=
  (List.range u.columns.length).map ((parameterChanges place l).lookup ·)

theorem resolve_parameterTerms (scope : Scope) (l : List ι) (n : Nat) :
    ((l.zipIdx n).map fun p => (.parameter p.2 : NamedExpr)).mapM scope.resolve =
      .ok ((l.zipIdx n).map fun p => .parameter p.2) :=
  List.mapM_map.trans (mapM_eq_ok_map fun _ _ => rfl)

theorem zip_parameterTerms (place : ι → Nat) (l : List ι) (n : Nat) :
    (l.map place).zip ((l.zipIdx n).map fun p => (.parameter p.2 : Term)) =
      (l.zipIdx n).map fun p => (place p.1, .parameter p.2) := by
  induction l generalizing n with
  | nil => rfl
  | cons x l ih => rw [List.zipIdx_cons, List.map_cons, List.map_cons, List.map_cons,
      List.zip_cons_cons, ih]

theorem ofStatement_insert (ht : db.table tableName = .ok u)
    (hp : ∀ x ∈ l, u.columnIndex? (name x) = some (place x)) (replaces : Bool) :
    ofStatement db text (.insert replaces tableName (some (l.map name))
      (some [l.zipIdx.map fun p => .parameter p.2])) =
      .ok (.insert replaces tableName [sources u place l]) := by
  have hterms := resolve_parameterTerms ⟨text, none, []⟩ l 0
  have hlen : (l.zipIdx.map fun p => (.parameter p.2 : Term)).length = (l.map place).length := by
    simp
  rw [ofStatement]
  unfold ofInsert
  refine bind_eq_ok.mpr ⟨u, ht, ?_⟩
  refine bind_eq_ok.mpr ⟨l.map place, List.mapM_map.trans (mapM_eq_ok_map fun x hx => ?_), ?_⟩
  · rw [Function.comp_apply, writtenColumn_eq (hp x hx)]
  refine bind_eq_ok.mpr ⟨[sources u place l], ?_, rfl⟩
  refine mapM_cons_eq_ok.mpr ⟨sources u place l, [], ?_, rfl, rfl⟩
  refine bind_eq_ok.mpr ⟨_, hterms, ?_⟩
  rw [if_neg (not_not_intro hlen), zip_parameterTerms]
  rfl

/-- Without columns a new row falls back in each of them. -/
theorem ofStatement_default (ht : db.table tableName = .ok u) (place : ι → Nat)
    (replaces : Bool) :
    ofStatement db text (.insert replaces tableName none none) =
      .ok (.insert replaces tableName [sources u place []]) := by
  rw [ofStatement]
  unfold ofInsert
  refine bind_eq_ok.mpr ⟨u, ht, ?_⟩
  refine bind_eq_ok.mpr ⟨List.range u.columns.length, rfl, ?_⟩
  have hs : sources u place [] = u.columns.map fun _ => none := by
    rw [List.map_const', ← List.length_range (n := u.columns.length), ← List.map_const']
    rfl
  rw [hs]
  rfl

/-- The condition that the column at a place equals a parameter. -/
def keyCondition (u : Table) (k n : Nat) : Term :=
  .compare .eq (.name ⟨some k, ((u.columns[k]?).map Column.affinity).getD .none⟩) (.parameter n)

section Names

variable {scope : Scope} {qualifier : String} {n : String} {i : Nat} {e : NamedExpr}

/-- A name without a table before it is found among the columns. -/
theorem resolve_nameUse (hs : scope.table = some (u, qualifier))
    (hi : u.columnIndex? n = some i) (he : Grammar.IsNameUse n e) :
    scope.resolve e = .ok (.name ⟨some i, ((u.columns[i]?).map Column.affinity).getD .none⟩) := by
  obtain ⟨isDouble, isPlain, start, rfl⟩ := he
  have hc : scope.cell? ⟨none, n, isDouble, isPlain, start⟩ = _ :=
    (by rw [Scope.cell?, hs]; rfl : _ = Scope.cellOf? u n).trans (cellOf_eq hi)
  rw [Scope.resolve, Expr.resolve, Scope.meaning, hc]

theorem resolve_keyCondition (hs : scope.table = some (u, qualifier))
    (hi : u.columnIndex? n = some i) {j : Nat} {e : Option NamedExpr}
    (he : Grammar.IsKeyCondition n j e) :
    scope.resolveOption e = .ok (some (keyCondition u i j)) := by
  obtain ⟨a, ha, rfl⟩ := he
  have hr : a.resolve scope.meaning = .ok _ := resolve_nameUse hs hi ha
  rw [Scope.resolveOption, Scope.resolve, Expr.resolve, hr]
  rfl

end Names

variable {keyName : String} {k : Nat}

theorem ofStatement_update (ht : db.table tableName = .ok u)
    (hp : ∀ x ∈ l, u.columnIndex? (name x) = some (place x))
    (hk : u.columnIndex? keyName = some k) {e : Option NamedExpr}
    (he : Grammar.IsKeyCondition keyName l.length e) :
    ofStatement db text
      (.update tableName (l.zipIdx.map fun p => (name p.1, .parameter p.2)) e) =
      .ok (.update tableName (parameterChanges place l) (some (keyCondition u k l.length))) := by
  rw [ofStatement]
  unfold ofUpdate
  refine bind_eq_ok.mpr ⟨u, ht, ?_⟩
  refine bind_eq_ok.mpr ⟨parameterChanges place l,
    List.mapM_map.trans (mapM_eq_ok_map fun p hp' => ?_), ?_⟩
  · have hx : p.1 ∈ l := List.fst_mem_of_mem_zipIdx hp'
    refine bind_eq_ok.mpr ⟨_, rfl, ?_⟩
    rw [writtenColumn_eq (hp p.1 hx)]
    rfl
  · exact bind_eq_ok.mpr ⟨_, resolve_keyCondition rfl hk he, rfl⟩

/-- Whatever an update writes to, its condition is the one on the key. -/
theorem exists_of_ofStatement_update (ht : db.table tableName = .ok u)
    (hk : u.columnIndex? keyName = some k) {changes : List (String × NamedExpr)} {n : Nat}
    {e : Option NamedExpr} (he : Grammar.IsKeyCondition keyName n e) {plan : Plan}
    (h : ofStatement db text (.update tableName changes e) = .ok plan) :
    ∃ changes', plan = .update tableName changes' (some (keyCondition u k n)) := by
  rw [ofStatement] at h
  unfold ofUpdate at h
  obtain ⟨u', hu', h⟩ := bind_eq_ok.mp h
  obtain rfl := Except.ok.inj (ht.symm.trans hu')
  obtain ⟨changes', -, h⟩ := bind_eq_ok.mp h
  obtain ⟨condition, hc, h⟩ := bind_eq_ok.mp h
  rw [resolve_keyCondition rfl hk he] at hc
  obtain rfl := Except.ok.inj hc
  exact ⟨changes', (Except.ok.inj h).symm⟩

theorem ofStatement_delete (ht : db.table tableName = .ok u)
    (hk : u.columnIndex? keyName = some k) {e : Option NamedExpr}
    (he : Grammar.IsKeyCondition keyName 0 e) :
    ofStatement db text (.delete tableName e) =
      .ok (.delete tableName (some (keyCondition u k 0))) := by
  rw [ofStatement]
  unfold ofDelete
  refine bind_eq_ok.mpr ⟨u, ht, ?_⟩
  exact bind_eq_ok.mpr ⟨_, resolve_keyCondition rfl hk he, rfl⟩

/-- What a selection shows for a column. -/
def shown (u : Table) (i : Nat) : Term × String :=
  (.name ⟨some i, ((u.columns[i]?).map Column.affinity).getD .none⟩, u.columnName i)

theorem itemTerms_nameItem {scope : Scope} {qualifier n : String} {i : Nat} {item : Item}
    (hs : scope.table = some (u, qualifier)) (hi : u.columnIndex? n = some i)
    (hn : Grammar.IsNameItem n item) :
    itemTerms scope item = .ok [((shown u i).1, (shown u i).2, none)] := by
  obtain ⟨e, spelling, he, rfl⟩ := hn
  refine bind_eq_ok.mpr ⟨_, resolve_nameUse hs hi he, ?_⟩
  rw [hs]
  rfl

theorem mapM_itemTerms {scope : Scope} {qualifier : String} {items : List Item} {n : Nat}
    (hs : scope.table = some (u, qualifier))
    (hp : ∀ x ∈ l, u.columnIndex? (name x) = some (place x))
    (hi : Grammar.Listed (fun x _ i => Grammar.IsNameItem (name x) i) 0 l n items) :
    items.mapM (itemTerms scope) =
      .ok (l.map fun x => [((shown u (place x)).1, (shown u (place x)).2, none)]) := by
  induction l generalizing n items with
  | nil => cases items with
    | nil => rfl
    | cons => exact hi.elim
  | cons x l ih => cases items with
    | nil => exact hi.elim
    | cons item items =>
      have hx := itemTerms_nameItem hs (hp x (List.mem_cons_self ..)) hi.1
      have hl := ih (fun y hy => hp y (List.mem_cons_of_mem _ hy)) hi.2
      exact mapM_cons_eq_ok.mpr ⟨_, _, hx, hl, rfl⟩

/-- Without unique columns the rows are visited in the order of their numbers. -/
theorem scanColumn_eq_none (h : u.uniqueColumns = []) (condition : Option Term)
    (cells : List Cell) : scanColumn u condition cells = none := by
  unfold scanColumn
  rw [h]
  exact ite_self none

/-- A condition on the key finds its row by the number. -/
theorem scanColumn_keyCondition (h : u.key = some k) (n : Nat) (cells : List Cell) :
    scanColumn u (some (keyCondition u k n)) cells = none := by
  have hkey : restricts u none (keyCondition u k n) = true := by
    simp [keyCondition, restricts, isColumn, h, Expr.names]
  have hconjuncts : (keyCondition u k n).conjuncts = [keyCondition u k n] := by
    rw [keyCondition, Expr.conjuncts]
    nofun
  have hany : [keyCondition u k n].any (restricts u none) = true := by
    rw [List.any_cons, hkey, Bool.true_or]
  unfold scanColumn
  rw [Option.map_some, Option.getD_some, hconjuncts]
  exact if_pos hany

/-- The column in whose order the rows are visited when some columns are shown. -/
def scanOf (u : Table) (place : ι → Nat) (l : List ι) (condition : Option Term) : Option Nat :=
  scanColumn u condition ((l.map fun x => (shown u (place x)).1).flatMap Expr.names ++
    (condition.map Expr.names).getD [])

theorem ofStatement_select (ht : db.table tableName = .ok u)
    (hp : ∀ x ∈ l, u.columnIndex? (name x) = some (place x)) {items : List Item}
    (hi : Grammar.Listed (fun x _ i => Grammar.IsNameItem (name x) i) 0 l 0 items)
    {condition : Option NamedExpr} {term : Option Term}
    (hc : ∀ scope : Scope, scope.table = some (u, tableName) →
      scope.resolveOption condition = .ok term) :
    ofStatement db text (.select ⟨items, some tableName, tableName, condition, [], none, none⟩) =
      .ok (.select ⟨some tableName, l.map fun x => shown u (place x), term, [], none, none,
        scanOf u place l term⟩) := by
  rw [ofStatement]
  unfold ofSelect
  refine bind_eq_ok.mpr ⟨some u, by rw [ht]; rfl, ?_⟩
  refine bind_eq_ok.mpr ⟨none, rfl, ?_⟩
  refine bind_eq_ok.mpr ⟨none, rfl, ?_⟩
  refine bind_eq_ok.mpr ⟨_, mapM_itemTerms rfl hp hi, ?_⟩
  refine bind_eq_ok.mpr ⟨term, hc _ rfl, ?_⟩
  refine bind_eq_ok.mpr ⟨[], rfl, ?_⟩
  have hflat : (l.map fun x => [((shown u (place x)).1, (shown u (place x)).2,
      (none : Option String))]).flatten =
      l.map fun x => ((shown u (place x)).1, (shown u (place x)).2, none) := by
    rw [← List.flatMap_def, List.map_eq_flatMap]
  simp only [hflat, List.map_map]
  rw [Option.bind_some, scanOf, List.flatMap_nil, List.append_nil]
  rfl

end Plan

end TaggedRows.Sql
