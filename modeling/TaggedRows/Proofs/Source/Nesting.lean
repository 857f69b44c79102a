import TaggedRows.Proofs.Source.Trees

/-!
# What a form takes is nested

Every phrase of the grammar takes token trees: it closes each delimiter that it opens, and never one
that was opened before. So the delimiters around an accepted part are found without its grammar.

- **The first token** (`Front`, `Form.refine`, `Form.refute`): what a test tells about it.
- **Nested forms** (`Form.nests`): a token is no delimiter, unless a form stands between two of
  them.
- **The grammar** (`Source.isTrees_of_follow`): all phrases are nested.
-/

namespace TaggedRows

/-- What the next token may be besides a leaf. -/
structure Front where
  opening : Bool
  closing : Bool
  deriving DecidableEq

namespace Front

/-- Nothing is known. -/
def any : Front := ⟨true, true⟩

def union (k l : Front) : Front := ⟨k.opening || l.opening, k.closing || l.closing⟩

/-- The tokens begin as it is known. -/
def Allows (k : Front) (ts : List Token) : Prop :=
  ∀ t ∈ ts.head?, (TokenClass.anyOpening.admits t = true → k.opening = true) ∧
    (TokenClass.anyClosing.admits t = true → k.closing = true)

theorem allows_any (ts : List Token) : any.Allows ts := fun _ _ => ⟨fun _ => rfl, fun _ => rfl⟩

variable {k l : Front} {ts : List Token}

theorem Allows.union_left (h : k.Allows ts) : (k.union l).Allows ts := fun t ht =>
  ⟨fun ho => by simp [union, (h t ht).1 ho], fun hc => by simp [union, (h t ht).2 hc]⟩

theorem Allows.union_right (h : l.Allows ts) : (k.union l).Allows ts := fun t ht =>
  ⟨fun ho => by simp [union, (h t ht).1 ho], fun hc => by simp [union, (h t ht).2 hc]⟩

end Front

namespace TokenClass

/-- Some token of the class opens a group. -/
def mayOpen : TokenClass → Bool
  | .opening _ | .anyOpening | .any => true
  | _ => false

/-- Some token of the class closes a group. -/
def mayClose : TokenClass → Bool
  | .closing _ | .anyClosing | .any => true
  | _ => false

/-- All tokens of the class open groups. -/
def isOpening : TokenClass → Bool
  | .opening _ | .anyOpening => true
  | _ => false

/-- All tokens of the class close groups. -/
def isClosing : TokenClass → Bool
  | .closing _ | .anyClosing => true
  | _ => false

variable {c : TokenClass} {t : Token}

theorem mayOpen_of_admits (h : c.admits t = true) (ht : anyOpening.admits t = true) :
    c.mayOpen = true := by
  cases t with
  | opening d => cases c <;> first | rfl | cases h
  | _ => cases ht

theorem mayClose_of_admits (h : c.admits t = true) (ht : anyClosing.admits t = true) :
    c.mayClose = true := by
  cases t with
  | closing d => cases c <;> first | rfl | cases h
  | _ => cases ht

theorem eq_opening_of_admits (hc : c.isOpening = true) (h : c.admits t = true) :
    ∃ d, t = .opening d := by
  cases t with
  | opening d => exact ⟨d, rfl⟩
  | _ => cases c <;> first | cases hc; done | cases h

theorem eq_closing_of_admits (hc : c.isClosing = true) (h : c.admits t = true) :
    ∃ d, t = .closing d := by
  cases t with
  | closing d => exact ⟨d, rfl⟩
  | _ => cases c <;> first | cases hc; done | cases h

end TokenClass

namespace Form

variable {P : Type}

/-- What is known where a form refuses. -/
def refute : Form P → Front → Front
  | .token .anyOpening, k => { k with opening := false }
  | .token .anyClosing, k => { k with closing := false }
  | _, k => k

/-- What is known where a form accepts. -/
def refine : Form P → Front → Front
  | .refuse, _ => ⟨false, false⟩
  | .token c, k => ⟨k.opening && c.mayOpen, k.closing && c.mayClose⟩
  | .seq a _, k => refine a k
  | .ite test a b, k => (refine a (refine test k)).union (refine b (refute test k))
  | _, k => k

/-- What is known behind a form: something if it only looks ahead. -/
def after : Form P → Front → Front
  | .ite test .empty .refuse, k => refine test k
  | _, _ => .any

/-- The form takes token trees, if the phrases do; the phrases in `guarded` where no token closes a
group. -/
def nests (guarded : P → Bool) : Form P → Front → Bool
  | .token c, k => !(k.opening && c.mayOpen) && !(k.closing && c.mayClose)
  | .seq (.token c) (.seq f (.token d)), k =>
    if c.isOpening && d.isClosing then nests guarded f .any
    else nests guarded (.token c) k && nests guarded (.seq f (.token d)) .any
  | .seq a b, k => nests guarded a k && nests guarded b (after a k)
  | .ite test a b, k => nests guarded a (refine test k) && nests guarded b (refute test k)
  | .loop test body, _ => nests guarded body (refine test .any)
  | .phrase p, k => !(guarded p && k.closing)
  | _, _ => true

open Source (IsTrees IsLeaf)

variable {grammar : P → Form P} {guarded : P → Bool} {n : Nat} {f a b : Form P} {k : Front}
  {ts rest : List Token}

theorem allows_refute (hk : k.Allows ts) (h : run grammar n f ts = .refused) :
    (refute f k).Allows ts := by
  unfold refute
  split
  · intro t ht
    refine ⟨fun ho => ?_, (hk t ht).2⟩
    obtain ⟨ts, rfl⟩ := List.head?_eq_some_iff.mp ht
    cases n with
    | zero => cases h
    | succ n => simp [run, ho] at h
  · intro t ht
    refine ⟨(hk t ht).1, fun hc => ?_⟩
    obtain ⟨ts, rfl⟩ := List.head?_eq_some_iff.mp ht
    cases n with
    | zero => cases h
    | succ n => simp [run, hc] at h
  · exact hk

theorem allows_refine (hk : k.Allows ts) (h : run grammar n f ts = .accepted rest) :
    (refine f k).Allows ts := by
  induction f generalizing n k rest with
  | empty => exact hk
  | refuse =>
    cases n with
    | zero => cases h
    | succ n => cases h
  | token c =>
    intro t ht
    obtain ⟨ts, rfl⟩ := List.head?_eq_some_iff.mp ht
    cases n with
    | zero => cases h
    | succ n =>
      have hc : c.admits t = true := by
        rw [run] at h
        split at h
        · assumption
        · cases h
      exact ⟨fun ho => Bool.and_eq_true_iff.mpr
          ⟨(hk t ht).1 ho, TokenClass.mayOpen_of_admits hc ho⟩,
        fun ho => Bool.and_eq_true_iff.mpr
          ⟨(hk t ht).2 ho, TokenClass.mayClose_of_admits hc ho⟩⟩
  | seq a b iha =>
    cases n with
    | zero => cases h
    | succ n =>
      simp only [run] at h
      split at h
      · next mid hmid => exact iha hk hmid
      · next hne => exact absurd h (hne _)
  | ite test a b ihtest iha ihb =>
    cases n with
    | zero => cases h
    | succ n =>
      simp only [run] at h
      split at h
      · next mid htest => exact (iha (ihtest hk htest) h).union_left
      · next htest => exact (ihb (allows_refute hk htest) h).union_right
      · cases h
  | loop => exact hk
  | phrase => exact hk

theorem allows_after (hk : k.Allows ts) (h : run grammar n f ts = .accepted rest) :
    (after f k).Allows rest := by
  unfold after
  split
  · next test =>
    cases n with
    | zero => cases h
    | succ n =>
      simp only [run] at h
      split at h
      · next mid htest =>
        cases n with
        | zero => cases h
        | succ n =>
          cases h
          exact allows_refine hk htest
      · next htest => cases n <;> cases h
      · cases h
  · exact Front.allows_any rest

theorem nests_seq (h : nests guarded (.seq a b) k = true) :
    (∃ c f d, a = .token c ∧ b = .seq f (.token d) ∧ c.isOpening = true ∧ d.isClosing = true ∧
      nests guarded f .any = true) ∨
    nests guarded a k = true ∧ nests guarded b (after a k) = true := by
  by_cases hgroup : ∃ c f d, a = .token c ∧ b = .seq f (.token d)
  · obtain ⟨c, f, d, rfl, rfl⟩ := hgroup
    rw [nests] at h
    split at h
    · next hcd =>
      obtain ⟨hc, hd⟩ := Bool.and_eq_true_iff.mp hcd
      exact .inl ⟨c, f, d, rfl, rfl, hc, hd, h⟩
    · exact .inr (Bool.and_eq_true_iff.mp h)
  · rw [nests] at h
    · exact .inr (Bool.and_eq_true_iff.mp h)
    · rintro c f d rfl rfl
      exact hgroup ⟨c, f, d, rfl, rfl⟩

/-- A token that is nested on its own is a leaf. -/
theorem isLeaf_of_nests {c : TokenClass} {t : Token}
    (hf : nests guarded (.token c : Form P) k = true) (hk : k.Allows (t :: ts))
    (hc : c.admits t = true) : IsLeaf t := by
  obtain ⟨hopens, hcloses⟩ := Bool.and_eq_true_iff.mp hf
  rw [Bool.not_eq_true', Bool.and_eq_false_iff] at hopens hcloses
  constructor
  · rw [Bool.eq_false_iff]
    intro ho
    have hfront := (hk t rfl).1 ho
    have hclass := TokenClass.mayOpen_of_admits hc ho
    simp [hfront, hclass] at hopens
  · rw [Bool.eq_false_iff]
    intro ho
    have hfront := (hk t rfl).2 ho
    have hclass := TokenClass.mayClose_of_admits hc ho
    simp [hfront, hclass] at hcloses

/-- A phrase that does not stand before a closing delimiter is only used where none follows. -/
theorem allows_phrase {p : P} (hf : nests guarded (.phrase p) k = true) (hk : k.Allows ts) :
    (if guarded p then ⟨true, false⟩ else .any : Front).Allows ts := by
  simp only [nests, Bool.not_eq_true', Bool.and_eq_false_iff] at hf
  split
  · next hp =>
    intro t ht
    refine ⟨fun _ => rfl, fun hc => ?_⟩
    have hclosing := (hk t ht).2 hc
    simp [hp, hclosing] at hf
  · exact Front.allows_any ts

/-- What is accepted in front of a closing delimiter, and the delimiter. -/
theorem run_closed_accepted {d : TokenClass} (hd : d.isClosing = true)
    (h : run grammar n (.seq f (.token d)) ts = .accepted rest) :
    ∃ e, run grammar n f ts = .accepted (.closing e :: rest) := by
  cases n with
  | zero => cases h
  | succ n =>
    simp only [run] at h
    split at h
    · next inner hinner =>
      obtain ⟨u, rfl, hu⟩ := run_token_accepted h
      obtain ⟨e, rfl⟩ := TokenClass.eq_closing_of_admits hd hu
      have hdeep := run_mono grammar (Nat.le_succ n) (by rw [hinner]; simp)
      exact ⟨e, hdeep.trans hinner⟩
    · next hne => exact absurd h (hne _)

/-- What an accepted form takes is nested. -/
theorem isTrees_of_run
    (hgrammar : ∀ p, nests guarded (grammar p) (if guarded p then ⟨true, false⟩ else .any) = true)
    (hf : nests guarded f k = true) (hk : k.Allows ts) (h : run grammar n f ts = .accepted rest) :
    ∃ as, ts = as ++ rest ∧ IsTrees as := by
  induction n generalizing f k ts rest with
  | zero => cases h
  | succ n ih =>
    cases f with
    | empty =>
      cases h
      exact ⟨[], rfl, .nil⟩
    | refuse => cases h
    | token c =>
      obtain ⟨t, rfl, hc⟩ := run_token_accepted h
      exact ⟨[t], rfl, .leaf (isLeaf_of_nests hf hk hc) .nil⟩
    | seq a b =>
      simp only [run] at h
      split at h
      · next mid hmid =>
        obtain ⟨c, g, d, rfl, rfl, hc, hd, hg⟩ | ⟨ha, hb⟩ := nests_seq hf
        · obtain ⟨t, rfl, ht⟩ := run_token_accepted hmid
          obtain ⟨e, rfl⟩ := TokenClass.eq_opening_of_admits hc ht
          obtain ⟨e', hinner⟩ := run_closed_accepted hd h
          obtain ⟨as, rfl, has⟩ := ih hg (Front.allows_any mid) hinner
          exact ⟨.opening e :: (as ++ .closing e' :: []), by simp, .group has .nil⟩
        · obtain ⟨as, rfl, has⟩ := ih ha hk hmid
          obtain ⟨bs, rfl, hbs⟩ := ih hb (allows_after hk hmid) h
          exact ⟨as ++ bs, by rw [List.append_assoc], has.append hbs⟩
      · next hne => exact absurd h (hne _)
    | ite test a b =>
      obtain ⟨ha, hb⟩ := Bool.and_eq_true_iff.mp hf
      simp only [run] at h
      split at h
      · next htest => exact ih ha (allows_refine hk htest) h
      · next htest => exact ih hb (allows_refute hk htest) h
      · cases h
    | loop test body =>
      have hbody : nests guarded body (refine test .any) = true := by simpa only [nests] using hf
      have hloop : nests guarded (.loop test body) .any = true := by simpa only [nests] using hf
      simp only [run] at h
      split at h
      · next htest =>
        split at h
        · next mid hmid =>
          obtain ⟨as, rfl, has⟩ := ih hbody (allows_refine (Front.allows_any ts) htest) hmid
          obtain ⟨bs, rfl, hbs⟩ := ih hloop (Front.allows_any mid) h
          exact ⟨as ++ bs, by rw [List.append_assoc], has.append hbs⟩
        · next hne => exact absurd h (hne _)
      · cases h
        exact ⟨[], rfl, .nil⟩
      · cases h
    | phrase p =>
      simp only [run] at h
      exact ih (hgrammar p) (allows_phrase hf hk) h

end Form

namespace Source

/-- The phrases that do not stand where a delimiter closes a group. -/
def guarded : Phrase → Bool
  | .tree => true
  | _ => false

theorem nests_grammar (p : Phrase) : Form.nests guarded (grammar p)
    (if guarded p then ⟨true, false⟩ else .any) = true := by
  cases p
  case type s | bounds s | expr s | logic s | comparison s | arith s | unary s | atom s |
      assignTail s | rangeTail s | logicTail s | comparisonTail s | arithTail s =>
    cases s <;> decide +kernel
  all_goals decide +kernel

/-- The tokens that a form takes are token trees. -/
theorem isTrees_of_follow {f : SForm} {ts rest : List Token}
    (hf : Form.nests guarded f .any = true) (h : follow f ts = .accepted rest) :
    ∃ as, ts = as ++ rest ∧ IsTrees as := by
  obtain ⟨n, hn⟩ := exists_run_eq_follow f ts
  exact Form.isTrees_of_run nests_grammar hf (Front.allows_any ts) ((hn n (Nat.le_refl n)).trans h)

end Source

end TaggedRows
