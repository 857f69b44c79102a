import TaggedRows.Proofs.Sql.Lexing
import TaggedRows.Sql.Grammar.Statements

/-!
# Reading the statements for a type

The texts that are put together from names and question marks are read as the statements that they
are meant to be, as long as each name is one token.

- **Readers** (`Reads`): a reader takes a text up to a given rest, and counts the parameters in it.
- **Names** (`IsEntity`, `IsName`): texts of one token, which stay such with marks before their
  commas (`IsEntity.marked`).
- **Lists** (`Reads.commaList`): what is read between commas is read in the same order.
- **Statements** (`insert_reads`, `insert_default_reads`, `update_reads`, `delete_reads`,
  `select_reads`): each with nothing behind it (`readStatement_of_reads`).
-/

namespace TaggedRows.Sql.Grammar

open TaggedRows.Sql.Token (Breaks IsToken Next breaks_nil breaks_cons lexemes_cons)

/-! ## Readers -/

/-- The first token of a text. -/
def first (cs : List Char) : Option Token := (Token.lexemes cs).head?.map Lexeme.token

/-- The reader takes a text up to a rest and the parameters from `n` to `n'`, and what it gives
satisfies a condition. -/
def Reads {α : Type} (p : Reader α) (cs : List Char) (n : Nat) (Q : α → Prop) (rest : List Char)
    (n' : Nat) : Prop :=
  ∃ a, p ⟨Token.lexemes cs, n⟩ = .ok (a, ⟨Token.lexemes rest, n'⟩) ∧ Q a ∧
    (Token.lexemes rest).length ≤ (Token.lexemes cs).length

variable {α β : Type} {p : Reader α} {f : α → Reader β} {cs cs' rest : List Char} {n n' n'' : Nat}
  {a : α} {Q : α → Prop} {R : β → Prop} {token : Token}

theorem first_of_next (h : Next cs token rest) : first cs = some token := by
  obtain ⟨start, hs⟩ := h
  simp [first, hs]

@[simp] theorem lexemes_blank (cs : List Char) : Token.lexemes (' ' :: cs) = Token.lexemes cs :=
  lexemes_cons ' ' cs

@[simp] theorem first_blank (cs : List Char) : first (' ' :: cs) = first cs := by
  simp [first]

@[simp] theorem first_nil : first [] = none := by
  simp [first, Token.lexemes]

namespace Reads

theorem pure (ha : Q a) : Reads (Pure.pure a) cs n Q cs n :=
  ⟨a, rfl, ha, Nat.le_refl _⟩

theorem bind (h : Reads p cs n Q cs' n') (hf : ∀ a, Q a → Reads (f a) cs' n' R rest n'') :
    Reads (p >>= f) cs n R rest n'' := by
  obtain ⟨a, ha, hq, hl⟩ := h
  obtain ⟨b, hb, hr, hl'⟩ := hf a hq
  refine ⟨b, ?_, hr, Nat.le_trans hl' hl⟩
  change (p ⟨Token.lexemes cs, n⟩ >>= fun s => f s.1 s.2) = _
  rw [ha]
  exact hb

/-- Goes on behind a reader whose result is known. -/
theorem andThen (h : Reads p cs n (· = a) cs' n') (hf : Reads (f a) cs' n' R rest n'') :
    Reads (p >>= f) cs n R rest n'' :=
  h.bind fun _ he => he ▸ hf

/-- What follows a reader whose result is known runs on the rest. -/
theorem bind_eq (h : Reads p cs n (· = a) cs' n') :
    (p >>= f) ⟨Token.lexemes cs, n⟩ = f a ⟨Token.lexemes cs', n'⟩ := by
  obtain ⟨_, ha, rfl, -⟩ := h
  change (p ⟨Token.lexemes cs, n⟩ >>= fun s => f s.1 s.2) = _
  rw [ha]
  rfl

theorem then_eq {q : Reader Bool} {x y : Reader β} (h : Reads q cs n (· = true) cs' n') :
    (do if ← q then x else y) ⟨Token.lexemes cs, n⟩ = x ⟨Token.lexemes cs', n'⟩ :=
  h.bind_eq.trans (by rw [if_pos rfl])

theorem else_eq {q : Reader Bool} {x y : Reader β} (h : Reads q cs n (· = false) cs' n') :
    (do if ← q then x else y) ⟨Token.lexemes cs, n⟩ = y ⟨Token.lexemes cs', n'⟩ :=
  h.bind_eq.trans (by rw [if_neg Bool.false_ne_true])

theorem mono (h : Reads p cs n Q rest n') {Q' : α → Prop} (hq : ∀ a, Q a → Q' a) :
    Reads p cs n Q' rest n' := by
  obtain ⟨a, ha, hqa, hl⟩ := h
  exact ⟨a, ha, hq a hqa, hl⟩

theorem blank (h : Reads p cs n Q rest n') : Reads p (' ' :: cs) n Q rest n' := by
  unfold Reads
  rw [lexemes_blank]
  exact h

/-- The state of the input is looked at. -/
theorem get : Reads (MonadState.get : Reader Input) cs n (· = ⟨Token.lexemes cs, n⟩) cs n :=
  ⟨_, rfl, rfl, Nat.le_refl _⟩

theorem peek : Reads Grammar.peek cs n (· = first cs) cs n :=
  ⟨_, rfl, rfl, Nat.le_refl _⟩

theorem here : Reads Grammar.here cs n (fun _ => True) cs n :=
  ⟨_, rfl, trivial, Nat.le_refl _⟩

theorem advance (h : Next cs token rest) : Reads Grammar.advance cs n (fun _ => True) rest n := by
  obtain ⟨start, hs⟩ := h
  refine ⟨(), ?_, trivial, by simp [hs]⟩
  change Except.ok ((), (⟨(Token.lexemes cs).drop 1, n⟩ : Input)) = _
  rw [hs]
  rfl

/-! ### Single tokens -/

variable {q : Token → Bool}

theorem skipIf (h : Next cs token rest) (hq : q token = true) :
    Reads (Grammar.skipIf q) cs n (· = true) rest n := by
  refine peek.bind ?_
  rintro _ rfl
  rw [first_of_next h]
  simp only [hq, if_true]
  exact (advance h).bind fun _ _ => .pure rfl

theorem skipIf_of_not (h : ∀ t, first cs = some t → q t = false) :
    Reads (Grammar.skipIf q) cs n (· = false) cs n := by
  refine peek.bind ?_
  rintro _ rfl
  cases hf : first cs with
  | none => exact .pure rfl
  | some t =>
    simp only [h t hf]
    exact .pure rfl

theorem keyword {w : String} (h : Next cs token rest) (hw : isKeyword w token = true) :
    Reads (Grammar.keyword w) cs n (fun _ => True) rest n :=
  (skipIf h hw).andThen (.pure trivial)

theorem sign {s : String} (h : Next cs (.sign s) rest) :
    Reads (Grammar.sign s) cs n (fun _ => True) rest n :=
  (skipIf h (by simp)).andThen (.pure trivial)

theorem skipSign {s : String} (h : Next cs (.sign s) rest) :
    Reads (Grammar.skipSign s) cs n (· = true) rest n :=
  skipIf h (by simp)

theorem named {g : Token → Option String} {name : String} (h : Next cs token rest)
    (hg : g token = some name) : Reads (Grammar.named g) cs n (· = name) rest n := by
  refine peek.bind ?_
  rintro _ rfl
  rw [first_of_next h, Option.bind_some, hg]
  exact (advance h).bind fun _ _ => .pure rfl

theorem optionalName_of_not {g : Token → Option String} (h : ∀ t, first cs = some t → g t = none) :
    Reads (Grammar.optionalName g) cs n (· = none) cs n := by
  refine peek.bind ?_
  rintro _ rfl
  cases hf : first cs with
  | none => exact .pure rfl
  | some t =>
    rw [Option.bind_some, h t hf]
    exact .pure rfl

end Reads

/-! ## Names -/

/-- The text is one token with a name, for a table or a column where no value can stand. -/
def IsEntity (cs : List Char) (name : String) : Prop :=
  ∃ token, IsToken cs token ∧ entityOf? token = some name

/-- The text is one token with a name, also where a value can stand. -/
def IsName (cs : List Char) (name : String) : Prop :=
  ∃ token, IsToken cs token ∧ nameOf? token = some name

theorem entityOf?_of_nameOf? {name : String} (h : nameOf? token = some name) :
    entityOf? token = some name := by
  cases token with
  | text s => cases h
  | _ => exact h

theorem IsName.isEntity {name : String} (h : IsName cs name) : IsEntity cs name := by
  obtain ⟨token, ht, hn⟩ := h
  exact ⟨token, ht, entityOf?_of_nameOf? hn⟩

theorem exists_entityOf? {cs : List Char} (h : IsToken cs token) (hw : ∀ w, token ≠ .word w) :
    ∃ name, entityOf? token = some name := by
  have ht := h.isNaming
  cases token with
  | word w => exact absurd rfl (hw w)
  | quoted name isDouble => exact ⟨name, rfl⟩
  | text s => exact ⟨s, rfl⟩
  | _ => exact ht.elim

/-- With marks before its commas a name is a name, if perhaps another one. -/
theorem IsEntity.marked {name : String} (h : IsEntity cs name) :
    ∃ name', IsEntity (Token.marked cs) name' := by
  obtain ⟨token, ht, hn⟩ := h
  obtain hcs | ⟨token', ht', hw⟩ := ht.marked
  · exact ⟨name, token, hcs.symm ▸ ht, hn⟩
  · obtain ⟨name', hn'⟩ := exists_entityOf? ht' hw
    exact ⟨name', token', ht', hn'⟩

/-- The text is a word that is a name as it stands. -/
def isNameWord (s : String) : Bool :=
  match s.toList with
  | [] => false
  | c :: body =>
    Token.isNameStart c && c ≠ '\ufeff' && body.all Token.isNameChar &&
      !isReserved (String.ofList (c :: body))

theorem isName_of_isNameWord {s : String} (h : isNameWord s = true) : IsName s.toList s := by
  have hs : String.ofList s.toList = s := String.ofList_toList
  unfold isNameWord at h
  split at h
  · cases h
  · next c body hw =>
    simp only [Bool.and_eq_true, decide_eq_true_eq, Bool.not_eq_true'] at h
    obtain ⟨⟨⟨hstart, hf⟩, hbody⟩, hword⟩ := h
    rw [hw] at hs ⊢
    refine ⟨_, Token.isToken_word hstart hf hbody, ?_⟩
    rw [hs] at hword ⊢
    exact if_neg (by simp [hword])

theorem IsEntity.reads {name : String} (h : IsEntity cs name) (hr : Breaks rest) :
    Reads entity (cs ++ rest) n (· = name) rest n := by
  obtain ⟨token, ht, hn⟩ := h
  exact .named (Next.named ht hr) hn

/-- A text begins with no token that goes on with an expression. -/
def Stops (rest : List Char) : Prop :=
  ∀ t, first rest = some t → t ∈ [.sign ",", .sign ")", .word "from", .word "where"]

theorem stops_of_next (h : Next rest token cs)
    (ht : token ∈ [.sign ",", .sign ")", .word "from", .word "where"]) : Stops rest := by
  intro t hf
  rw [first_of_next h] at hf
  exact Option.some.inj hf ▸ ht

theorem stops_nil : Stops [] := by simp [Stops]

theorem isKeyword_of_stop {w : String}
    (hw : w ∈ ["or", "and", "is", "isnull", "notnull", "like", "between", "not", "as"])
    (ht : token ∈ [.sign ",", .sign ")", .word "from", .word "where"]) :
    isKeyword w token = false := by
  have hall : ∀ w ∈ ["or", "and", "is", "isnull", "notnull", "like", "between", "not", "as"],
      ∀ t ∈ [Token.sign ",", .sign ")", .word "from", .word "where"], isKeyword w t = false := by
    decide +kernel
  exact hall w hw token ht

theorem Stops.peekOperator (h : Stops rest) :
    Reads Grammar.peekOperator rest n (· = none) rest n := by
  refine Reads.get.andThen ?_
  have hd : ((Token.lexemes rest).map Lexeme.token).head? = first rest := List.head?_map
  dsimp only
  rw [hd]
  cases hf : first rest with
  | none => exact .pure rfl
  | some t =>
    have ht := h t hf
    have hc : comparisonOf? t = none := by
      simp only [List.mem_cons, List.not_mem_nil, or_false] at ht
      rcases ht with rfl | rfl | rfl | rfl <;> rfl
    have hk := fun w hw => isKeyword_of_stop (w := w) hw ht
    simp only [hc, hk "or", hk "and", hk "is", hk "isnull", hk "notnull", hk "like", hk "between",
      hk "not", List.mem_cons, true_or, or_true, Bool.false_eq_true, if_false]
    exact .pure rfl

/-- An equals sign compares. -/
theorem peekOperator_equals (h : Next cs (.sign "=") rest) :
    Reads peekOperator cs n (· = some (.compare .eq, 1)) cs n := by
  refine Reads.get.andThen ?_
  have hd : ((Token.lexemes cs).map Lexeme.token).head? = first cs := List.head?_map
  dsimp only
  rw [hd, first_of_next h]
  exact .pure rfl

/-! ## Expressions -/

/-- The expression is a name without a table before it. -/
def IsNameUse (name : String) (e : NamedExpr) : Prop :=
  ∃ isDouble isPlain start, e = .name ⟨none, name, isDouble, isPlain, start⟩

/-- The text begins with no parenthesis and no point. -/
def EndsName (rest : List Char) : Prop :=
  first rest ≠ some (.sign "(") ∧ first rest ≠ some (.sign ".")

theorem Stops.endsName (h : Stops rest) : EndsName rest := by
  constructor <;> intro hf <;> have hm := h _ hf <;> simp at hm

theorem IsName.nameUse {name : String} (h : IsName cs name) (hr : Breaks rest)
    (he : EndsName rest) : Reads Grammar.nameUse (cs ++ rest) n (IsNameUse name) rest n := by
  obtain ⟨token, ht, hn⟩ := h
  have hnext := Next.named ht hr
  refine Reads.here.bind fun start _ => Reads.peek.andThen ?_
  refine (Reads.named hnext hn).andThen ?_
  have hp : ∀ t, first rest = some t → decide (t = .sign ".") = false := by
    rintro t hf
    exact decide_eq_false fun ht => he.2 (ht ▸ hf)
  refine (Reads.skipIf_of_not hp).andThen ?_
  exact .pure ⟨_, _, _, rfl⟩

theorem not_isReserved_of_nameOf? {w name : String} (h : nameOf? (.word w) = some name) :
    isReserved w = false := by
  cases hr : isReserved w with
  | false => rfl
  | true => simp [nameOf?, hr] at h

theorem not_countsRows {l : Lexeme} (h : first rest ≠ some (.sign "(")) :
    countsRows (l :: Token.lexemes rest) = false := by
  unfold countsRows
  split
  · next w hm =>
    refine absurd ?_ h
    cases hl : Token.lexemes rest with
    | nil => simp [hl] at hm
    | cons l' ls =>
      simp only [hl, List.take_succ_cons, List.map_cons, List.cons.injEq] at hm
      simp [first, hl, hm.2.1]
  · rfl

theorem IsName.operand {name : String} (h : IsName cs name) (hr : Breaks rest)
    (he : EndsName rest) (fuel : Nat) :
    Reads (Grammar.operand (fuel + 1)) (cs ++ rest) n (IsNameUse name) rest n := by
  have hu : Reads Grammar.nameUse (cs ++ rest) n (IsNameUse name) rest n := h.nameUse hr he
  obtain ⟨token, ht, hn⟩ := h
  have hnext := Next.named ht hr
  unfold Grammar.operand
  refine Reads.peek.andThen ?_
  rw [first_of_next hnext]
  cases token with
  | word w =>
    have hw := not_isReserved_of_nameOf? hn
    have hnull : w.toLower ≠ "null" := by
      intro hl
      simp [isReserved, hl, reservedWords] at hw
    have hnot : w.toLower ≠ "not" := by
      intro hl
      simp [isReserved, hl, reservedWords] at hw
    dsimp only
    rw [if_neg hnull, if_neg hnot]
    refine Reads.get.andThen ?_
    obtain ⟨start, hs⟩ := hnext
    rw [hs, not_countsRows he.1]
    exact hu
  | quoted => exact hu
  | _ => cases hn

theorem parameter_operand (hr : Breaks rest) (fuel : Nat) :
    Reads (operand (fuel + 1)) ('?' :: rest) n (· = .parameter n) rest (n + 1) := by
  obtain ⟨start, hs⟩ := Next.parameter hr
  unfold operand
  refine Reads.peek.andThen ?_
  rw [first_of_next ⟨start, hs⟩]
  refine Reads.get.andThen ?_
  refine ⟨_, ?_, rfl, by simp [hs]⟩
  rw [hs]
  rfl

/-- An operand by itself is an expression. -/
theorem Stops.expression (h : Stops rest) {fuel : Nat} {Q : NamedExpr → Prop}
    (ho : Reads (operand (fuel + 1)) cs n Q rest n') (level : Nat) :
    Reads (expression (fuel + 2) level) cs n Q rest n' := by
  unfold Grammar.expression
  refine ho.bind fun e he => ?_
  unfold operators
  exact h.peekOperator.andThen (.pure he)

theorem Stops.expr (h : Stops rest) {Q : NamedExpr → Prop}
    (ho : ∀ fuel, Reads (operand (fuel + 1)) cs n Q rest n') : Reads Grammar.expr cs n Q rest n' :=
  Reads.get.andThen (h.expression (ho (3 * (Token.lexemes cs).length + 1)) 1)

/-- A name that is compared with a parameter. -/
theorem IsName.expr_equals {name : String} (h : IsName cs name) (hr : Breaks rest)
    (hs : Stops rest) :
    Reads expr (cs ++ '=' :: '?' :: rest) n
      (fun e => ∃ a, IsNameUse name a ∧ e = .compare .eq a (.parameter n)) rest (n + 1) := by
  have heq : Next ('=' :: '?' :: rest) (.sign "=") ('?' :: rest) := .equals (by simp)
  have hb : Breaks ('=' :: '?' :: rest) := breaks_cons (by decide) _
  have he : EndsName ('=' :: '?' :: rest) := by
    constructor <;> rw [first_of_next heq] <;> decide
  obtain ⟨k, hk⟩ : ∃ k, 3 * (Token.lexemes (cs ++ '=' :: '?' :: rest)).length + 3 = k + 6 := by
    obtain ⟨token, ht, -⟩ := h
    obtain ⟨start, hl⟩ := Next.named ht hb
    exact ⟨3 * (Token.lexemes ('=' :: '?' :: rest)).length, by rw [hl, List.length_cons]; omega⟩
  refine Reads.get.andThen ?_
  dsimp only
  rw [hk]
  unfold expression
  refine (h.operand hb he (k + 4)).bind fun a ha => ?_
  unfold operators
  refine (peekOperator_equals heq).andThen ?_
  dsimp only
  refine (Reads.advance heq).bind fun _ _ => ?_
  refine (hs.expression (parameter_operand hr (k + 2)) _).andThen ?_
  unfold operators
  exact hs.peekOperator.andThen (.pure ⟨a, ha, rfl⟩)

/-! ## Lists -/

section Lists

variable {ι : Type} {t : ι → List Char}  {c : Nat} {l : List ι}
  {P : ι → Nat → α → Prop}

/-- Texts with commas between them. -/
def joined (t : ι → List Char) : List ι → List Char
  | [] => []
  | x :: xs => t x ++ xs.flatMap fun y => ',' :: t y

/-- What has been read for each of some texts, with the number of the parameters before it; each of
them has `c` parameters. -/
def Listed (P : ι → Nat → α → Prop) (c : Nat) : List ι → Nat → List α → Prop
  | [], _, [] => True
  | x :: xs, n, a :: as => P x n a ∧ Listed P c xs (n + c) as
  | _, _, _ => False

/-- The end of a list. -/
theorem Reads.go_single (h : Reads p cs n Q rest n') (hrest : first rest ≠ some (.sign ","))
    (m : Nat) : Reads (Grammar.commaList.go p m) cs n (fun as => ∃ a, Q a ∧ as = [a]) rest n' := by
  cases m with
  | zero => exact h.bind fun a ha => .pure ⟨a, ha, rfl⟩
  | succ m =>
    refine h.bind fun a ha => ?_
    have hc : ∀ t, first rest = some t → decide (t = .sign ",") = false :=
      fun t hf => decide_eq_false fun ht => hrest (ht ▸ hf)
    exact (Reads.skipIf_of_not hc).andThen (.pure ⟨a, ha, rfl⟩)

theorem Reads.single (h : Reads p cs n Q rest n') (hrest : first rest ≠ some (.sign ",")) :
    Reads (Grammar.commaList p) cs n (fun as => ∃ a, Q a ∧ as = [a]) rest n' :=
  Reads.get.andThen (h.go_single hrest _)

/-- Such a list is read where each of its texts is read in front of a comma and of the rest. -/
theorem Reads.commaList (hl : l ≠ []) (hrest : first rest ≠ some (.sign ","))
    (he : ∀ x ∈ l, ∀ n cs, (cs = rest ∨ ∃ cs', cs = ',' :: cs') →
      Reads p (t x ++ cs) n (P x n) cs (n + c)) :
    Reads (Grammar.commaList p) (joined t l ++ rest) n (Listed P c l n) rest
      (n + c * l.length) := by
  refine Reads.get.andThen ?_
  dsimp only
  generalize hm : (Token.lexemes (joined t l ++ rest)).length = m
  have hle : (Token.lexemes (joined t l ++ rest)).length ≤ m := Nat.le_of_eq hm
  clear hm
  -- one comma is left for each text behind the first one, so that the fuel lasts
  induction l generalizing m n with
  | nil => exact absurd rfl hl
  | cons x xs ih =>
    have hx := he x (List.mem_cons_self ..)
    cases xs with
    | nil =>
      have hself : joined t [x] ++ rest = t x ++ rest := by simp [joined]
      have hn : n + c * [x].length = n + c := by simp
      rw [hself, hn]
      refine ((hx n rest (.inl rfl)).go_single hrest m).mono ?_
      rintro _ ⟨a, ha, rfl⟩
      exact ⟨ha, trivial⟩
    | cons y ys =>
      have htail : joined t (x :: y :: ys) ++ rest =
          t x ++ ',' :: (joined t (y :: ys) ++ rest) := by simp [joined]
      rw [htail] at hle ⊢
      have hcomma : Next (',' :: (joined t (y :: ys) ++ rest)) (.sign ",")
          (joined t (y :: ys) ++ rest) := Next.sign (by decide) _
      have hxy := hx n (',' :: (joined t (y :: ys) ++ rest)) (.inr ⟨_, rfl⟩)
      obtain ⟨start, hs⟩ := hcomma
      have hlt : (Token.lexemes (joined t (y :: ys) ++ rest)).length < m := by
        obtain ⟨-, -, -, hlen⟩ := hxy
        rw [hs, List.length_cons] at hlen
        omega
      cases m with
      | zero => omega
      | succ m =>
        have hn : n + c * (x :: y :: ys).length = n + c + c * (y :: ys).length := by
          simp only [List.length_cons, Nat.mul_add, Nat.mul_one]
          omega
        rw [hn]
        refine hxy.bind fun a ha => ?_
        refine (Reads.skipIf ⟨start, hs⟩ (by decide)).andThen ?_
        refine (ih (by simp) (fun x' hx' => he x' (List.mem_cons_of_mem _ hx')) m
          (Nat.le_of_lt_succ hlt)).bind fun as has => ?_
        exact .pure ⟨ha, has⟩

theorem Listed.eq_map {g : ι → α} {as : List α} (h : Listed (fun x _ a => a = g x) c l n as) :
    as = l.map g := by
  induction l generalizing n as with
  | nil => cases as with
    | nil => rfl
    | cons => exact h.elim
  | cons x xs ih => cases as with
    | nil => exact h.elim
    | cons a as => rw [h.1, ih h.2]; rfl

/-- Every text of the list has one parameter. -/
theorem Listed.eq_zipIdx {g : ι → Nat → α} {as : List α}
    (h : Listed (fun x n a => a = g x n) 1 l n as) :
    as = (l.zipIdx n).map fun p => g p.1 p.2 := by
  induction l generalizing n as with
  | nil => cases as with
    | nil => rfl
    | cons => exact h.elim
  | cons x xs ih => cases as with
    | nil => exact h.elim
    | cons a as => rw [h.1, ih h.2]; rfl

end Lists

/-! ## Keywords -/

/-- The keywords of the statements that are put together. -/
def usedKeywords : List String :=
  ["select", "insert", "replace", "update", "delete", "from", "where", "into", "values", "default",
    "set"]

section Keywords

variable {w v : String}

theorem isToken_keyword (h : w ∈ usedKeywords) : IsToken w.toList (.word w) := by
  simp only [usedKeywords, List.mem_cons, List.not_mem_nil, or_false] at h
  rcases h with rfl | rfl | rfl | rfl | rfl | rfl | rfl | rfl | rfl | rfl | rfl <;>
    exact Token.isToken_word (by decide +kernel) (by decide +kernel) (by decide +kernel)

theorem isKeyword_iff (h : w ∈ usedKeywords) (h' : v ∈ usedKeywords) :
    isKeyword v (.word w) = decide (w = v) := by
  have hall : ∀ w ∈ usedKeywords, ∀ v ∈ usedKeywords,
      isKeyword v (.word w) = decide (w = v) := by decide +kernel
  exact hall w h v h'

theorem next_keyword (h : w ∈ usedKeywords) (hr : Breaks rest) :
    Next (w.toList ++ rest) (.word w) rest :=
  .named (isToken_keyword h) hr

namespace Reads

theorem keyword_self (h : w ∈ usedKeywords) (hr : Breaks rest) :
    Reads (Grammar.keyword w) (w.toList ++ rest) n (fun _ => True) rest n :=
  keyword (next_keyword h hr) (by simp [isKeyword_iff h h])

theorem skipKeyword_self (h : w ∈ usedKeywords) (hr : Breaks rest) :
    Reads (Grammar.skipKeyword w) (w.toList ++ rest) n (· = true) rest n :=
  skipIf (next_keyword h hr) (by simp [isKeyword_iff h h])

theorem skipKeyword_of_ne (h : w ∈ usedKeywords) (hr : Breaks rest) (h' : v ∈ usedKeywords)
    (hne : w ≠ v) :
    Reads (Grammar.skipKeyword v) (w.toList ++ rest) n (· = false) (w.toList ++ rest) n := by
  refine skipIf_of_not fun t ht => ?_
  rw [first_of_next (next_keyword h hr)] at ht
  rw [← Option.some.inj ht, isKeyword_iff h h']
  exact decide_eq_false hne

end Reads

end Keywords

/-! ## Statements -/

section Statements

variable {ι : Type} {table key : List Char} {tableName keyName : String} {t : ι → List Char}
  {name : ι → String} {l : List ι}

/-- The text begins with something that ends a list. -/
structure EndsList (rest : List Char) : Prop where
  breaks : Breaks rest
  stops : Stops rest
  first_ne : first rest ≠ some (.sign ",")

theorem endsList_nil : EndsList [] := ⟨breaks_nil, stops_nil, by simp⟩

theorem endsList_closing (cs : List Char) : EndsList (')' :: cs) := by
  have hn : Next (')' :: cs) (.sign ")") cs := .sign (by decide) cs
  refine ⟨breaks_cons (by decide) cs, stops_of_next hn (by decide), ?_⟩
  rw [first_of_next hn]
  decide

theorem endsList_keyword {w : String} (h : w ∈ ["from", "where"]) (hr : Breaks rest) :
    EndsList (' ' :: (w.toList ++ rest)) := by
  have hw : w ∈ usedKeywords := by
    simp only [List.mem_cons, List.not_mem_nil, or_false] at h
    rcases h with rfl | rfl <;> decide
  have hn := (next_keyword hw hr).blank
  refine ⟨breaks_cons (by decide) _, stops_of_next hn ?_, ?_⟩
  · simp only [List.mem_cons, List.not_mem_nil, or_false] at h
    rcases h with rfl | rfl <;> decide
  · rw [first_of_next hn]
    simp

/-- Between the texts of a list there are commas, and behind them is the end of the list. -/
theorem EndsList.of_comma_or (h : EndsList rest) {cs : List Char}
    (hcs : cs = rest ∨ ∃ cs', cs = ',' :: cs') : Breaks cs ∧ Stops cs := by
  rcases hcs with rfl | ⟨cs', rfl⟩
  · exact ⟨h.breaks, h.stops⟩
  · exact ⟨breaks_cons (by decide) _,
      stops_of_next (Next.sign (s := ",") (by decide) _) (by decide)⟩

theorem EndsList.entities (h : EndsList rest) (hl : l ≠ [])
    (hx : ∀ x ∈ l, IsEntity (t x) (name x)) :
    Reads (commaList entity) (joined t l ++ rest) n (· = l.map name) rest n := by
  have hlist := Reads.commaList (c := 0) (n := n) (P := fun x _ a => a = name x) hl h.first_ne
    fun x hm n cs hcs => (hx x hm).reads (h.of_comma_or hcs).1
  rw [Nat.zero_mul] at hlist
  exact hlist.mono fun _ has => has.eq_map

/-- Question marks with commas between them. -/
theorem EndsList.parameters (h : EndsList rest) (hl : l ≠ []) :
    Reads (commaList expr) (joined (fun _ => ['?']) l ++ rest) n
      (· = (l.zipIdx n).map fun p => .parameter p.2) rest (n + l.length) := by
  have hlist := Reads.commaList (t := fun _ => ['?']) (c := 1) (n := n)
    (P := fun (_ : ι) n (a : NamedExpr) => a = .parameter n) hl h.first_ne
    fun _ _ n cs hcs =>
      (h.of_comma_or hcs).2.expr fun fuel => parameter_operand (h.of_comma_or hcs).1 fuel
  rw [Nat.one_mul] at hlist
  exact hlist.mono fun _ has => has.eq_zipIdx

/-- One row of question marks. -/
theorem valueRows_reads (hl : l ≠ []) :
    Reads (commaList valueRow) ('(' :: (joined (fun _ => ['?']) l ++ [')'])) n
      (· = [(l.zipIdx n).map fun p => .parameter p.2]) [] (n + l.length) := by
  have hrow : Reads valueRow ('(' :: (joined (fun _ => ['?']) l ++ [')'])) n
      (· = (l.zipIdx n).map fun p => .parameter p.2) [] (n + l.length) := by
    unfold valueRow
    refine (Reads.sign (.sign (by decide) _)).bind fun _ _ => ?_
    refine ((endsList_closing []).parameters hl).andThen ?_
    exact (Reads.sign (.sign (by decide) _)).bind fun _ _ => .pure rfl
  refine (hrow.single endsList_nil.first_ne).mono ?_
  rintro _ ⟨_, rfl, rfl⟩
  rfl

theorem insert_reads (replaces : Bool) (ht : IsEntity table tableName) (hl : l ≠ [])
    (hx : ∀ x ∈ l, IsEntity (t x) (name x)) :
    Reads (insert replaces) (' ' :: ("into".toList ++ ' ' :: (table ++ ' ' :: '(' ::
      (joined t l ++ ')' :: ' ' :: ("values".toList ++ '(' ::
        (joined (fun _ => ['?']) l ++ [')'])))))) 0
      (· = .insert replaces tableName (some (l.map name))
        (some [l.zipIdx.map fun p => .parameter p.2])) [] l.length := by
  have hrow : Breaks ('(' :: (joined (fun _ => ['?']) l ++ [')'])) := breaks_cons (by decide) _
  unfold insert
  refine (Reads.keyword_self (by decide) (breaks_cons (by decide) _)).blank.bind fun _ _ => ?_
  refine (ht.reads (breaks_cons (by decide) _)).blank.andThen ?_
  refine (Reads.skipSign (.sign (by decide) _)).blank.andThen ?_
  refine ((endsList_closing _).entities hl hx).andThen ?_
  refine (Reads.sign (.sign (by decide) _)).bind fun _ _ => ?_
  refine Reads.andThen (.pure rfl) ?_
  refine (Reads.skipKeyword_of_ne (w := "values") (v := "default") (by decide) hrow (by decide)
    (by decide)).blank.andThen ?_
  refine (Reads.keyword_self (by decide) hrow).bind fun _ _ => ?_
  have hrows := valueRows_reads (n := 0) hl
  rw [Nat.zero_add] at hrows
  exact hrows.andThen (.pure rfl)

/-- A row of default values. -/
theorem insert_default_reads (replaces : Bool) (ht : IsEntity table tableName) :
    Reads (insert replaces)
      (' ' :: ("into".toList ++ ' ' :: (table ++ ' ' :: ("default".toList ++ ' ' ::
        ("values".toList ++ []))))) 0
      (· = .insert replaces tableName none none) [] 0 := by
  have hword : Breaks (' ' :: ("values".toList ++ [])) := breaks_cons (by decide) _
  have hsign : ∀ t, first ("default".toList ++ ' ' :: ("values".toList ++ [])) = some t →
      decide (t = .sign "(") = false := by
    intro t hf
    rw [first_of_next (next_keyword (by decide) hword)] at hf
    rw [← Option.some.inj hf]
    rfl
  unfold insert
  refine (Reads.keyword_self (by decide) (breaks_cons (by decide) _)).blank.bind fun _ _ => ?_
  refine (ht.reads (breaks_cons (by decide) _)).blank.andThen ?_
  refine (Reads.skipIf_of_not hsign).blank.andThen ?_
  refine Reads.andThen (.pure rfl) ?_
  refine (Reads.skipKeyword_self (by decide) hword).andThen ?_
  refine (Reads.keyword_self (by decide) breaks_nil).blank.bind fun _ _ => ?_
  exact .pure rfl

/-- The condition that a name equals a parameter. -/
def IsKeyCondition (name : String) (n : Nat) (e : Option NamedExpr) : Prop :=
  ∃ a, IsNameUse name a ∧ e = some (.compare .eq a (.parameter n))

theorem where_reads (hk : IsName key keyName) :
    Reads (optionalExpr "where") (' ' :: ("where".toList ++ ' ' :: (key ++ ['=', '?']))) n
      (IsKeyCondition keyName n) [] (n + 1) := by
  refine (Reads.skipKeyword_self (by decide) (breaks_cons (by decide) _)).blank.andThen ?_
  refine (hk.expr_equals breaks_nil stops_nil).blank.bind fun e he => ?_
  obtain ⟨a, ha, rfl⟩ := he
  exact .pure ⟨a, ha, rfl⟩

theorem delete_reads (ht : IsEntity table tableName) (hk : IsName key keyName) :
    Reads delete (' ' :: ("from".toList ++ ' ' :: (table ++ ' ' :: ("where".toList ++ ' ' ::
      (key ++ ['=', '?']))))) 0
      (fun s => ∃ e, IsKeyCondition keyName 0 e ∧ s = .delete tableName e) [] 1 := by
  unfold delete
  refine (Reads.keyword_self (by decide) (breaks_cons (by decide) _)).blank.bind fun _ _ => ?_
  refine (ht.reads (breaks_cons (by decide) _)).blank.andThen ?_
  exact (where_reads hk).bind fun e he => .pure ⟨e, he, rfl⟩

/-- A column is set to the next parameter. -/
theorem change_reads {columnName : String} {cs : List Char} (h : IsEntity cs columnName)
    (hb : Breaks rest) (hs : Stops rest) :
    Reads change (cs ++ ['=', '?'] ++ rest) n (· = (columnName, .parameter n)) rest (n + 1) := by
  have heq : Breaks ('=' :: '?' :: rest) := breaks_cons (by decide) _
  rw [List.append_assoc]
  refine (h.reads heq).andThen ?_
  refine (Reads.sign (.equals (by simp))).bind fun _ _ => ?_
  exact (hs.expr (parameter_operand hb)).andThen (.pure rfl)

theorem update_reads (ht : IsEntity table tableName) (hl : l ≠ [])
    (hx : ∀ x ∈ l, IsEntity (t x) (name x)) (hk : IsName key keyName) :
    Reads update (' ' :: (table ++ ' ' :: ("set".toList ++ ' ' ::
      (joined (fun x => t x ++ ['=', '?']) l ++ ' ' :: ("where".toList ++ ' ' ::
        (key ++ ['=', '?'])))))) 0
      (fun s => ∃ e, IsKeyCondition keyName l.length e ∧
        s = .update tableName (l.zipIdx.map fun p => (name p.1, .parameter p.2)) e) []
      (l.length + 1) := by
  have hend : EndsList (' ' :: ("where".toList ++ ' ' :: (key ++ ['=', '?']))) :=
    endsList_keyword (by decide) (breaks_cons (by decide) _)
  have hlist : Reads (Grammar.commaList change) (joined (fun x => t x ++ ['=', '?']) l ++
      ' ' :: ("where".toList ++ ' ' :: (key ++ ['=', '?']))) 0
      (Listed (fun x n a => a = (name x, .parameter n)) 1 l 0)
      (' ' :: ("where".toList ++ ' ' :: (key ++ ['=', '?']))) (0 + 1 * l.length) :=
    Reads.commaList hl hend.first_ne fun x hm n cs hcs =>
      change_reads (hx x hm) (hend.of_comma_or hcs).1 (hend.of_comma_or hcs).2
  rw [Nat.one_mul, Nat.zero_add] at hlist
  unfold update
  refine (ht.reads (breaks_cons (by decide) _)).blank.andThen ?_
  refine (Reads.keyword_self (by decide) (breaks_cons (by decide) _)).blank.bind fun _ _ => ?_
  refine hlist.blank.bind fun as has => ?_
  obtain rfl := has.eq_zipIdx (g := fun x n => (name x, Expr.parameter n))
  exact (where_reads hk).bind fun e he => .pure ⟨e, he, rfl⟩

/-! ### Selections -/

/-- The item is a name without an alias. -/
def IsNameItem (name : String) (i : Item) : Prop :=
  ∃ e spelling, IsNameUse name e ∧ i = .one e none spelling

theorem Stops.optionalAlias (h : Stops rest) :
    Reads Grammar.optionalAlias rest n (· = none) rest n := by
  have has : ∀ t, first rest = some t → isKeyword "as" t = false := fun t hf =>
    isKeyword_of_stop (by simp) (h t hf)
  have hnone : ∀ t, first rest = some t → entityOf? t = none := by
    have hall : ∀ t ∈ [Token.sign ",", .sign ")", .word "from", .word "where"],
        entityOf? t = none := by decide +kernel
    exact fun t hf => hall t (h t hf)
  unfold Grammar.optionalAlias
  exact (Reads.skipIf_of_not has).andThen (.optionalName_of_not hnone)

theorem IsName.item {cs : List Char} {name : String} (h : IsName cs name) (hb : Breaks rest)
    (hs : Stops rest) : Reads Grammar.item (cs ++ rest) n (IsNameItem name) rest n := by
  have hstar : ∀ t, first (cs ++ rest) = some t → decide (t = .sign "*") = false := by
    obtain ⟨token, ht, -⟩ := h
    intro t hf
    rw [first_of_next (Next.named ht hb)] at hf
    obtain rfl := Option.some.inj hf
    refine decide_eq_false ?_
    rintro rfl
    exact ht.isNaming
  unfold Grammar.item
  refine (Reads.skipIf_of_not hstar).andThen ?_
  refine Reads.here.bind fun _ _ => ?_
  refine (hs.expr (h.operand hb hs.endsName)).bind fun e he => ?_
  refine Reads.here.bind fun _ _ => ?_
  exact hs.optionalAlias.andThen (.pure ⟨e, _, he, rfl⟩)

/-- No keyword stands at the end of a text. -/
theorem skipKeyword_end (w : String) : Reads (skipKeyword w) [] n (· = false) [] n :=
  .skipIf_of_not (by simp)

theorem select_reads (ht : IsEntity table tableName) (hl : l ≠ [])
    (hx : ∀ x ∈ l, IsName (t x) (name x)) {tail : List Char} (htail : EndsList tail)
    {C : Option NamedExpr → Prop} (hc : Reads (optionalExpr "where") tail 0 C [] n) :
    Reads select (' ' :: (joined t l ++ ' ' :: ("from".toList ++ ' ' :: (table ++ tail)))) 0
      (fun s => ∃ items condition, Listed (fun x _ i => IsNameItem (name x) i) 0 l 0 items ∧
        C condition ∧
        s = .select ⟨items, some tableName, tableName, condition, [], none, none⟩) [] n := by
  have hend : EndsList (' ' :: ("from".toList ++ ' ' :: (table ++ tail))) :=
    endsList_keyword (by decide) (breaks_cons (by decide) _)
  have hlist := Reads.commaList (p := item) (c := 0) (n := 0)
    (P := fun x _ i => IsNameItem (name x) i) hl hend.first_ne fun x hm n cs hcs =>
      (hx x hm).item (hend.of_comma_or hcs).1 (hend.of_comma_or hcs).2
  rw [Nat.zero_mul] at hlist
  unfold select
  refine hlist.blank.bind fun items hi => ?_
  refine (Reads.skipKeyword_self (by decide) (breaks_cons (by decide) _)).blank.andThen ?_
  refine (ht.reads htail.breaks).blank.andThen ?_
  refine htail.stops.optionalAlias.andThen ?_
  refine Reads.andThen (.pure rfl) ?_
  refine hc.bind fun condition hcondition => ?_
  refine (skipKeyword_end "order").andThen ?_
  refine Reads.andThen (.pure rfl) ?_
  have hlimits : Reads limits [] n (· = (none, none)) [] n := by
    unfold limits
    exact (skipKeyword_end "limit").andThen (.pure rfl)
  exact hlimits.andThen (.pure ⟨items, condition, hi, hcondition, rfl⟩)

/-! ### Whole texts -/

/-- The readers behind the first keyword of the statements that are put together. -/
def statementReaders : List (String × Reader Statement) :=
  [("select", select), ("insert", insert false), ("replace", insert true), ("update", update),
    ("delete", delete)]

variable {w : String} {p : Reader Statement} {S : Statement → Prop}

/-- A statement is read by the reader that its first keyword tells. -/
theorem statement_eq (h : (w, p) ∈ statementReaders) (hr : Breaks rest) (n : Nat) :
    Grammar.statement ⟨Token.lexemes (w.toList ++ rest), n⟩ = p ⟨Token.lexemes rest, n⟩ := by
  simp only [statementReaders, List.mem_cons, List.not_mem_nil, or_false, Prod.mk.injEq] at h
  have hskip {v : String} (hw : w ∈ usedKeywords) (hv : v ∈ usedKeywords) (hne : w ≠ v) :=
    Reads.skipKeyword_of_ne (n := n) hw hr hv hne
  have hself (hw : w ∈ usedKeywords) := Reads.skipKeyword_self (n := n) hw hr
  unfold Grammar.statement
  rcases h with ⟨rfl, rfl⟩ | ⟨rfl, rfl⟩ | ⟨rfl, rfl⟩ | ⟨rfl, rfl⟩ | ⟨rfl, rfl⟩
  · rw [(hself (by decide)).then_eq]
  · rw [(hskip (v := "select") (by decide) (by decide) (by decide)).else_eq,
      (hself (by decide)).then_eq]
  · rw [(hskip (v := "select") (by decide) (by decide) (by decide)).else_eq,
      (hskip (v := "insert") (by decide) (by decide) (by decide)).else_eq,
      (hself (by decide)).then_eq]
  · rw [(hskip (v := "select") (by decide) (by decide) (by decide)).else_eq,
      (hskip (v := "insert") (by decide) (by decide) (by decide)).else_eq,
      (hskip (v := "replace") (by decide) (by decide) (by decide)).else_eq,
      (hself (by decide)).then_eq]
  · rw [(hskip (v := "select") (by decide) (by decide) (by decide)).else_eq,
      (hskip (v := "insert") (by decide) (by decide) (by decide)).else_eq,
      (hskip (v := "replace") (by decide) (by decide) (by decide)).else_eq,
      (hskip (v := "update") (by decide) (by decide) (by decide)).else_eq,
      (hself (by decide)).then_eq]

theorem Reads.statement (h : (w, p) ∈ statementReaders) (hr : Breaks rest)
    (hp : Reads p rest 0 S [] n) : Reads Grammar.statement (w.toList ++ rest) 0 S [] n := by
  obtain ⟨s, hs, hq, -⟩ := hp
  exact ⟨s, (statement_eq h hr 0).trans hs, hq, by simp [Token.lexemes]⟩

/-- The text is read as one statement, with nothing behind it. -/
theorem readStatement_of_reads (h : (w, p) ∈ statementReaders) (hr : Breaks rest)
    (hp : Reads p rest 0 S [] n) :
    ∃ s, readStatement (w.toList ++ rest) = .ok (some ⟨s, n, []⟩) ∧ S s := by
  have hb : Reads body (w.toList ++ rest) 0 S [] n := by
    refine (Reads.statement h hr hp).bind fun s hs => Reads.peek.andThen ?_
    rw [first_nil]
    exact .pure hs
  have hw : w ∈ usedKeywords := by
    simp only [statementReaders, List.mem_cons, List.not_mem_nil, or_false, Prod.mk.injEq] at h
    rcases h with ⟨rfl, -⟩ | ⟨rfl, -⟩ | ⟨rfl, -⟩ | ⟨rfl, -⟩ | ⟨rfl, -⟩ <;> decide
  obtain ⟨s, hs, hq, -⟩ := hb
  refine ⟨s, ?_, hq⟩
  obtain ⟨start, hl⟩ := next_keyword hw hr
  unfold readStatement
  rw [hl] at hs ⊢
  have hrun : body.run ⟨⟨.word w, start, rest⟩ :: Token.lexemes rest, 0⟩ = _ := hs
  simp [hrun, Token.lexemes]

end Statements

end TaggedRows.Sql.Grammar
