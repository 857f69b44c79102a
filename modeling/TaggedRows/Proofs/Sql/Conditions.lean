import TaggedRows.Proofs.Sql.Running

/-!
# Conditions that join equalities

Names that are compared with parameters, with `and` between the comparisons.

- **Reading** (`IsName.conditions`): the comparisons are grouped to the left, and the parameters are
  numbered in their order.
- **Planning** (`Plan.conditions`, `resolve_conditions`): every name is found in the table.
- **Rows** (`holds_conditions`): the rows that satisfy the condition are those that have an equal
  cell for every value. A null equals nothing.
-/

namespace TaggedRows.Sql

/-! ## Reading -/

namespace Grammar

open TaggedRows.Sql.Token (Breaks Next breaks_cons)

variable {ι : Type} {cs rest rest' : List Char} {n n' n'' level fuel : Nat} {left : NamedExpr}
  {Q R : NamedExpr → Prop}

/-- Behind the rest of a text there is no operator of the level or above. -/
def Ends (level : Nat) (rest : List Char) : Prop :=
  ∃ next, (∀ n, Reads peekOperator rest n (· = next) rest n) ∧ ∀ op ∈ next, op.1.level < level

theorem Stops.ends (h : Stops rest) (level : Nat) : Ends level rest :=
  ⟨none, fun _ => h.peekOperator, by simp⟩

theorem Ends.mono {higher : Nat} (h : Ends level rest) (hl : level ≤ higher) :
    Ends higher rest := by
  obtain ⟨next, hp, hop⟩ := h
  exact ⟨next, hp, fun op ho => Nat.lt_of_lt_of_le (hop op ho) hl⟩

theorem Ends.operators (h : Ends level rest) (fuel : Nat) (left : NamedExpr) :
    Reads (operators (fuel + 1) level left) rest n (· = left) rest n := by
  obtain ⟨next, hp, hop⟩ := h
  unfold Grammar.operators
  refine (hp n).andThen ?_
  cases next with
  | none => exact .pure rfl
  | some op =>
    dsimp only
    rw [if_pos (hop op rfl)]
    exact .pure rfl

/-- An `and` joins conditions. -/
theorem peekOperator_and (h : Next cs (.word "and") rest) :
    Reads peekOperator cs n (· = some (.and, 1)) cs n := by
  have hor : isKeyword "or" (.word "and") = false := by decide +kernel
  have hand : isKeyword "and" (.word "and") = true := by decide +kernel
  refine Reads.get.andThen ?_
  have hd : ((Token.lexemes cs).map Lexeme.token).head? = first cs := List.head?_map
  dsimp only
  rw [hd, first_of_next h]
  simp only [comparisonOf?, hor, hand, if_true, Bool.false_eq_true, if_false]
  exact .pure rfl

theorem next_and (hr : Breaks rest) : Next ("and".toList ++ rest) (.word "and") rest :=
  .named (Token.isToken_word (by decide +kernel) (by decide +kernel) (by decide +kernel)) hr

/-- The comparison of a name with a parameter. -/
def IsEquality (name : String) (n : Nat) (e : NamedExpr) : Prop :=
  ∃ a, IsNameUse name a ∧ e = .compare .eq a (.parameter n)

/-- An operand is compared with a parameter, and the operators behind that go on. -/
theorem operators_equals (hl : level ≤ 4) (hr : Breaks rest) (he : Ends 5 rest)
    (hgo : Reads (operators (fuel + 2) level (.compare .eq left (.parameter n))) rest (n + 1) Q
      rest' n') :
    Reads (operators (fuel + 3) level left) ('=' :: '?' :: rest) n Q rest' n' := by
  have heq : Next ('=' :: '?' :: rest) (.sign "=") ('?' :: rest) := .equals (by simp)
  have hlevel : ¬ (Operator.compare .eq).level < level := Nat.not_lt.mpr hl
  unfold operators
  refine (peekOperator_equals heq).andThen ?_
  dsimp only
  rw [if_neg hlevel]
  refine (Reads.advance heq).bind fun _ _ => ?_
  have hright : Reads (expression (fuel + 2) 5) ('?' :: rest) n (· = .parameter n) rest
      (n + 1) := by
    unfold expression
    exact (parameter_operand hr fuel).andThen (he.operators fuel _)
  exact hright.andThen hgo

/-- A condition behind `and` is joined to those before it. -/
theorem operators_and (hr : Breaks cs) (hright : Reads (expression fuel 3) cs n R rest n')
    (hgo : ∀ right, R right → Reads (operators fuel 1 (.and left right)) rest n' Q rest' n'') :
    Reads (operators (fuel + 1) 1 left) (' ' :: ("and".toList ++ cs)) n Q rest' n'' := by
  have hand := (next_and hr).blank
  unfold operators
  refine (peekOperator_and hand).andThen ?_
  dsimp only
  rw [if_neg (by decide)]
  refine (Reads.advance hand).bind fun _ _ => ?_
  exact hright.bind hgo

/-! ### Many comparisons -/

/-- Comparisons, each behind `and`. -/
def conjoined (t : ι → List Char) (l : List ι) : List Char :=
  l.flatMap fun x => ' ' :: ("and".toList ++ ' ' :: (t x ++ ['=', '?']))

/-- Comparisons have been joined to a condition, from left to right. -/
inductive IsConjunction (name : ι → String) : NamedExpr → List ι → Nat → NamedExpr → Prop
  | nil {left : NamedExpr} {n : Nat} : IsConjunction name left [] n left
  | cons {left right e : NamedExpr} {x : ι} {l : List ι} {n : Nat}
    (hx : IsEquality (name x) n right) (h : IsConjunction name (.and left right) l (n + 1) e) :
    IsConjunction name left (x :: l) n e

/-- The comparisons of a list of names, if there are any. -/
def IsConditions (name : ι → String) : List ι → Nat → Option NamedExpr → Prop
  | [], _, condition => condition = none
  | x :: l, n, condition =>
    ∃ left e, IsEquality (name x) n left ∧ IsConjunction name left l (n + 1) e ∧ condition = some e

variable {t : ι → List Char} {name : ι → String} {l : List ι} {x : ι}

theorem conjoined_cons (x : ι) (l : List ι) (rest : List Char) : conjoined t (x :: l) ++ rest =
    ' ' :: ("and".toList ++ ' ' :: (t x ++ '=' :: '?' :: (conjoined t l ++ rest))) := by
  simp [conjoined]

theorem breaks_conjoined (hr : Breaks rest) : Breaks (conjoined t l ++ rest) := by
  cases l with
  | nil => exact hr
  | cons x l =>
    rw [conjoined_cons]
    exact breaks_cons (by decide) _

/-- Behind a comparison there is the end or an `and`. -/
theorem ends_conjoined (hs : Stops rest) : Ends 3 (conjoined t l ++ rest) := by
  cases l with
  | nil => exact hs.ends 3
  | cons x l =>
    rw [conjoined_cons]
    refine ⟨some (.and, 1), fun n => ?_, by simp [Operator.level]⟩
    exact peekOperator_and (next_and (breaks_cons (by decide) _)).blank

theorem length_of_next {token : Token} (h : Next cs token rest) :
    (Token.lexemes cs).length = (Token.lexemes rest).length + 1 := by
  obtain ⟨start, hs⟩ := h
  rw [hs, List.length_cons]

/-- A comparison has three tokens. -/
theorem IsName.length_equals {column : String} (h : IsName cs column) (hr : Breaks rest) :
    (Token.lexemes (cs ++ '=' :: '?' :: rest)).length = (Token.lexemes rest).length + 3 := by
  obtain ⟨token, ht, -⟩ := h
  rw [length_of_next (.named ht (breaks_cons (by decide) _)),
    length_of_next (.equals (by simp)), length_of_next (.parameter hr)]

theorem length_conjoined (hx : ∀ x ∈ l, IsName (t x) (name x)) (hr : Breaks rest) :
    l.length ≤ (Token.lexemes (conjoined t l ++ rest)).length := by
  induction l with
  | nil => exact Nat.zero_le _
  | cons x l ih =>
    obtain ⟨hname, hl⟩ := List.forall_mem_cons.mp hx
    rw [conjoined_cons, lexemes_blank, length_of_next (next_and (breaks_cons (by decide) _)),
      lexemes_blank, hname.length_equals (breaks_conjoined hr), List.length_cons]
    have := ih hl
    omega

theorem IsName.equals {column : String} (h : IsName cs column) (hr : Breaks rest)
    (he : Ends 3 rest) (fuel : Nat) :
    Reads (expression (fuel + 4) 3) (cs ++ '=' :: '?' :: rest) n (IsEquality column n) rest
      (n + 1) := by
  have heq : Next ('=' :: '?' :: rest) (.sign "=") ('?' :: rest) := .equals (by simp)
  have hname : EndsName ('=' :: '?' :: rest) := by
    constructor <;> rw [first_of_next heq] <;> decide
  unfold expression
  refine (h.operand (breaks_cons (by decide) _) hname (fuel + 2)).bind fun a ha => ?_
  refine operators_equals (by decide) hr (he.mono (by decide)) ?_
  exact (he.operators (fuel + 1) _).mono fun _ he => ⟨a, ha, he⟩

/-- By induction on the comparisons: each takes one step of the fuel. -/
theorem operators_conjoined (hx : ∀ x ∈ l, IsName (t x) (name x)) (hr : Breaks rest)
    (hs : Stops rest) (left : NamedExpr) (n fuel : Nat) :
    Reads (operators (l.length + fuel + 4) 1 left) (conjoined t l ++ rest) n
      (IsConjunction name left l n) rest (n + l.length) := by
  induction l generalizing left n with
  | nil => exact ((hs.ends 1).operators (0 + fuel + 3) left).mono fun _ he => he ▸ .nil
  | cons x l ih =>
    obtain ⟨hname, hl⟩ := List.forall_mem_cons.mp hx
    have hright := (hname.equals (n := n) (breaks_conjoined (t := t) (l := l) hr)
      (ends_conjoined hs) (l.length + fuel)).blank
    have hfuel : (x :: l).length + fuel + 4 = l.length + fuel + 4 + 1 := by
      rw [List.length_cons]
      omega
    have hn : n + (x :: l).length = n + 1 + l.length := by
      rw [List.length_cons]
      omega
    rw [conjoined_cons, hfuel, hn]
    exact operators_and (breaks_cons (by decide) _) hright fun right hright =>
      (ih hl (.and left right) (n + 1)).mono fun _ he => .cons hright he

/-- Comparisons with `and` between them. -/
theorem IsName.conditions (hx : ∀ y ∈ x :: l, IsName (t y) (name y)) (hr : Breaks rest)
    (hs : Stops rest) :
    Reads expr (t x ++ '=' :: '?' :: (conjoined t l ++ rest)) n
      (fun e => IsConditions name (x :: l) n (some e)) rest (n + (x :: l).length) := by
  obtain ⟨hname, hl⟩ := List.forall_mem_cons.mp hx
  have hbreaks := breaks_conjoined (t := t) (l := l) hr
  have heq : Next ('=' :: '?' :: (conjoined t l ++ rest)) (.sign "=")
      ('?' :: (conjoined t l ++ rest)) := .equals (by simp)
  have hendsName : EndsName ('=' :: '?' :: (conjoined t l ++ rest)) := by
    constructor <;> rw [first_of_next heq] <;> decide
  have hle : l.length + 6 ≤ 3 * (Token.lexemes (t x ++ '=' :: '?' ::
      (conjoined t l ++ rest))).length + 3 := by
    have hlength := length_conjoined hl hr
    rw [hname.length_equals hbreaks]
    omega
  obtain ⟨fuel, hfuel⟩ := Nat.exists_eq_add_of_le hle
  have hn : n + (x :: l).length = n + 1 + l.length := by
    rw [List.length_cons]
    omega
  refine Reads.get.andThen ?_
  dsimp only
  rw [hfuel, Nat.add_right_comm, hn]
  unfold expression
  refine (hname.operand (breaks_cons (by decide) _) hendsName (l.length + fuel + 4)).bind
    fun a ha => ?_
  refine operators_equals (by decide) hbreaks ((ends_conjoined hs).mono (by decide)) ?_
  exact (operators_conjoined hl hr hs _ (n + 1) fuel).mono fun e he =>
    ⟨_, e, ⟨a, ha, rfl⟩, he, rfl⟩

/-- A clause with comparisons, if there are any. -/
def conditionText (t : ι → List Char) : List ι → List Char
  | [] => []
  | x :: l => ' ' :: ("where".toList ++ ' ' :: (t x ++ '=' :: '?' :: conjoined t l))

theorem endsList_conditionText : EndsList (conditionText t l) := by
  cases l with
  | nil => exact endsList_nil
  | cons x l => exact endsList_keyword (by decide) (breaks_cons (by decide) _)

theorem conditionText_reads (hx : ∀ x ∈ l, IsName (t x) (name x)) :
    Reads (optionalExpr "where") (conditionText t l) n (IsConditions name l n) []
      (n + l.length) := by
  cases l with
  | nil => exact (skipKeyword_end "where").andThen (.pure rfl)
  | cons x l =>
    refine (Reads.skipKeyword_self (by decide) (breaks_cons (by decide) _)).blank.andThen ?_
    have hread := (IsName.conditions (n := n) hx Token.breaks_nil stops_nil).blank
    rw [List.append_nil] at hread
    exact hread.bind fun e he => .pure he

end Grammar

/-! ## Planning -/

namespace Plan

variable {ι : Type} {u : Table} {place : ι → Nat} {name : ι → String} {l : List ι} {n : Nat}
  {scope : Scope} {qualifier : String}

/-- A condition, and the comparisons that are joined to it. -/
def conjunction (u : Table) (place : ι → Nat) (left : Term) : List ι → Nat → Term
  | [], _ => left
  | x :: l, n => conjunction u place (.and left (keyCondition u (place x) n)) l (n + 1)

/-- The comparisons of some columns with parameters, if there are any. -/
def conditions (u : Table) (place : ι → Nat) : List ι → Nat → Option Term
  | [], _ => none
  | x :: l, n => some (conjunction u place (keyCondition u (place x) n) l (n + 1))

section

variable (hs : scope.table = some (u, qualifier))

include hs

theorem resolve_equality {column : String} {i : Nat} {e : NamedExpr}
    (hi : u.columnIndex? column = some i) (he : Grammar.IsEquality column n e) :
    scope.resolve e = .ok (keyCondition u i n) := by
  obtain ⟨a, ha, rfl⟩ := he
  have hr : a.resolve scope.meaning = .ok _ := resolve_nameUse hs hi ha
  rw [Scope.resolve, Expr.resolve, hr]
  rfl

theorem resolve_conjunction (hp : ∀ x ∈ l, u.columnIndex? (name x) = some (place x))
    {left e : NamedExpr} {term : Term} (hleft : scope.resolve left = .ok term)
    (he : Grammar.IsConjunction name left l n e) :
    scope.resolve e = .ok (conjunction u place term l n) := by
  induction he generalizing term with
  | nil => exact hleft
  | cons hx _ ih =>
    obtain ⟨hi, hl⟩ := List.forall_mem_cons.mp hp
    refine ih hl ?_
    have hleft : Expr.resolve scope.meaning _ = .ok _ := hleft
    have hright : Expr.resolve scope.meaning _ = .ok _ := resolve_equality hs hi hx
    rw [Scope.resolve, Expr.resolve, hleft, hright]
    rfl

theorem resolve_conditions (hp : ∀ x ∈ l, u.columnIndex? (name x) = some (place x))
    {e : Option NamedExpr} (he : Grammar.IsConditions name l n e) :
    scope.resolveOption e = .ok (conditions u place l n) := by
  cases l with
  | nil =>
    obtain rfl : e = none := he
    rfl
  | cons x l =>
    obtain ⟨hi, hl⟩ := List.forall_mem_cons.mp hp
    obtain ⟨left, e, hleft, he, rfl⟩ := he
    rw [Scope.resolveOption, resolve_conjunction hs hl (resolve_equality hs hi hleft) he]
    rfl

end

end Plan

/-! ## Rows -/

variable [Engine]

/-- The values are equal for the column: neither of them is null, and the forms in which the column
compares them are the same. -/
def Column.Equals (c : Column) (cell v : Value) : Prop :=
  cell ≠ .null ∧ v ≠ .null ∧
    (c.affinity.forComparison cell).compare (c.affinity.forComparison v) = .eq

instance (c : Column) (cell v : Value) : Decidable (c.Equals cell v) :=
  inferInstanceAs (Decidable (_ ∧ _ ∧ _))

/-- The cell of the row at a place equals the value. -/
def Table.CellEquals (u : Table) (i : Nat) (v : Value) (row : Row) : Prop :=
  ∃ c, u.columns[i]? = some c ∧ c.Equals (row.cells.getD i .null) v

instance (u : Table) (i : Nat) (v : Value) (row : Row) : Decidable (u.CellEquals i v row) :=
  inferInstanceAs (Decidable (∃ c ∈ u.columns[i]?, c.Equals (row.cells.getD i .null) v))

namespace Term

variable {ι : Type} {u : Table} {place : ι → Nat} {l : List ι} {row : Row} {frame : Frame}

theorem truth_ofTruth (b : Option Bool) : (ofTruth b).truth? = b := by
  rcases b with _ | _ | _ <;> rfl

/-- The term is true; a null is not. -/
def IsTrue (frame : Frame) (t : Term) : Prop := (eval frame t).truth? = some true

theorem isTrue_and {a b : Term} :
    IsTrue frame (.and a b) ↔ IsTrue frame a ∧ IsTrue frame b := by
  rw [IsTrue, eval, truth_ofTruth]
  rcases ha : (eval frame a).truth? with _ | _ | _ <;>
    rcases hb : (eval frame b).truth? with _ | _ | _ <;> simp [IsTrue, ha, hb, andTruth]

theorem compareUnder_eq_true {c : Column} {cell v : Value} :
    compareUnder .eq c.affinity cell v = some true ↔ c.Equals cell v := by
  rw [compareUnder, order?, Column.Equals]
  split
  · next h =>
    refine iff_of_false (by simp) fun ⟨hcell, hv, _⟩ => h.elim hcell hv
  · next h =>
    rw [not_or] at h
    simp [Comparison.holds, h.1, h.2]

theorem isTrue_keyCondition {k n : Nat} (hk : k < u.columns.length) :
    IsTrue frame (Plan.keyCondition u k n) ↔
      u.CellEquals k (frame.parameters.getD n .null) frame.row := by
  have hc : u.columns[k]? = some u.columns[k] := List.getElem?_eq_getElem hk
  have heval : (eval frame (Plan.keyCondition u k n)).truth? =
      compareUnder .eq u.columns[k].affinity (frame.row.cells.getD k .null)
        (frame.parameters.getD n .null) := by
    rw [Plan.keyCondition, eval, truth_ofTruth, hc]
    rfl
  rw [IsTrue, heval, compareUnder_eq_true, Table.CellEquals, hc]
  simp

theorem isTrue_conjunction {left : Term} {n : Nat} :
    IsTrue frame (Plan.conjunction u place left l n) ↔ IsTrue frame left ∧
      ∀ p ∈ l.zipIdx n, IsTrue frame (Plan.keyCondition u (place p.1) p.2) := by
  induction l generalizing left n with
  | nil => simp [Plan.conjunction]
  | cons x l ih => rw [Plan.conjunction, ih, isTrue_and, List.zipIdx_cons, List.forall_mem_cons,
      and_assoc]

/-- The rows that satisfy the comparisons have, for each of them, a cell that equals the value that
is bound for it. -/
theorem holds_conditions (hp : ∀ x ∈ l, place x < u.columns.length) (v : ι → Value) :
    holds (Plan.conditions u place l 0) (l.map v) row = true ↔
      ∀ x ∈ l, u.CellEquals (place x) (v x) row := by
  have hvalue : ∀ p ∈ l.zipIdx, (l.map v).getD p.2 .null = v p.1 := by
    intro p hp
    rw [List.getD_eq_getElem?_getD, List.getElem?_map, (List.mem_zipIdx_iff_getElem?.mp hp)]
    rfl
  have hall : holds (Plan.conditions u place l 0) (l.map v) row = true ↔
      ∀ p ∈ l.zipIdx, IsTrue ⟨l.map v, row, 0⟩ (Plan.keyCondition u (place p.1) p.2) := by
    cases l with
    | nil => simp [Plan.conditions, holds]
    | cons x l =>
      rw [Plan.conditions, List.zipIdx_cons, List.forall_mem_cons, ← isTrue_conjunction]
      simp [holds, IsTrue]
  have hequal : ∀ p ∈ l.zipIdx, IsTrue ⟨l.map v, row, 0⟩ (Plan.keyCondition u (place p.1) p.2) ↔
      u.CellEquals (place p.1) (v p.1) row := fun p hp' => by
    rw [isTrue_keyCondition (hp p.1 (List.fst_mem_of_mem_zipIdx hp')), hvalue p hp']
  have hfst := List.forall_mem_map (f := Prod.fst) (l := l.zipIdx)
    (P := fun x => u.CellEquals (place x) (v x) row)
  rw [List.zipIdx_map_fst] at hfst
  rw [hall, forall₂_congr hequal, ← hfst]

end Term

end TaggedRows.Sql
