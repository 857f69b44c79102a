import TaggedRows.Proofs.Source.Pieces
import TaggedRows.Source.Grammar.Items

/-!
# The bound on the depth suffices

Following a form ends: no phrase comes back to itself without taking a token, and every loop takes
one each time around. So the depth that is needed grows with the number of tokens only.

- **Tokens that are taken** (`Form.eats`): forms that accept nothing without taking a token
  (`Form.length_lt_of_eats`).
- **Depth** (`Form.cost`): the depth that is needed before a token is taken. With the bound `step`
  on it, `step` more for each token are enough (`Form.run_ne_exhausted`).
- **The grammar** (`Source.rank`, `Source.run_ne_exhausted`): both are decided for every phrase, so
  that the bound of `Form.depthFor` is never reached.
-/

namespace TaggedRows

namespace Form

section

variable {P : Type} (eatsPhrase : P → Bool)

/-- The form takes a token where it accepts, if the phrases do. -/
def eats : Form P → Bool
  | .empty => false
  | .refuse => true
  | .token _ => true
  | .seq a b => eats a || eats b
  | .ite _ a b => eats a && eats b
  | .loop _ _ => false
  | .phrase p => eatsPhrase p

variable (rank : P → Nat)

/-- The depth that a form needs up to the first token that it takes, given that of the phrases. -/
def cost : Form P → Nat
  | .empty => 1
  | .refuse => 1
  | .token _ => 1
  | .seq a b => 1 + max (cost a) (if eats eatsPhrase a then 0 else cost b)
  | .ite test a b => 1 + max (cost test) (max (cost a) (cost b))
  | .loop test body => 1 + max (cost test) (cost body)
  | .phrase p => 1 + rank p

/-- The bodies of all loops take tokens, and what stands behind a token needs no more depth than
the given one. -/
def isBounded (step : Nat) : Form P → Bool
  | .seq a b => isBounded step a && isBounded step b && cost eatsPhrase rank b ≤ step
  | .ite test a b => isBounded step test && isBounded step a && isBounded step b
  | .loop test body => isBounded step test && isBounded step body && eats eatsPhrase body
  | _ => true

end

variable {P : Type} {grammar : P → Form P} {eatsPhrase : P → Bool} {rank : P → Nat} {step : Nat}

theorem length_le_of_accepted {n : Nat} {f : Form P} {ts rest : List Token}
    (h : run grammar n f ts = .accepted rest) : rest.length ≤ ts.length :=
  (run_suffix h).length_le

/-- Where such a form accepts, it has taken a token. -/
theorem length_lt_of_eats (hphrase : ∀ p, eatsPhrase p = true → eats eatsPhrase (grammar p) = true)
    {n : Nat} {f : Form P} {ts rest : List Token} (hf : eats eatsPhrase f = true)
    (h : run grammar n f ts = .accepted rest) : rest.length < ts.length := by
  induction n generalizing f ts rest with
  | zero => simp [run] at h
  | succ n ih =>
    cases f with
    | empty => cases hf
    | refuse => simp [run] at h
    | token c =>
      cases ts with
      | nil => simp [run] at h
      | cons t ts =>
        simp only [run] at h
        split at h
        · cases h
          simp
        · cases h
    | seq a b =>
      simp only [run] at h
      split at h
      · next mid ha =>
        rcases Bool.or_eq_true_iff.mp hf with hf | hf
        · exact Nat.lt_of_le_of_lt (length_le_of_accepted h) (ih hf ha)
        · exact Nat.lt_of_lt_of_le (ih hf h) (length_le_of_accepted ha)
      · next hne => exact absurd h (hne _)
    | ite test a b =>
      obtain ⟨ha, hb⟩ := Bool.and_eq_true_iff.mp hf
      simp only [run] at h
      split at h
      · exact ih ha h
      · exact ih hb h
      · cases h
    | loop test body => cases hf
    | phrase p => exact ih (hphrase p hf) (by simpa only [run] using h)

/-- A form is followed to its end with the depth that it needs, and `step` more for each token. -/
theorem run_ne_exhausted
    (heats : ∀ p, eatsPhrase p = true → eats eatsPhrase (grammar p) = true)
    (hrank : ∀ p, isBounded eatsPhrase rank step (grammar p) = true ∧
      cost eatsPhrase rank (grammar p) ≤ rank p)
    (hstep : 0 < step) {n : Nat} {f : Form P} {ts : List Token}
    (hf : isBounded eatsPhrase rank step f = true)
    (hn : cost eatsPhrase rank f + step * ts.length ≤ n) : run grammar n f ts ≠ .exhausted := by
  induction n generalizing f ts with
  | zero =>
    have hcost : 0 < cost eatsPhrase rank f := by
      cases f <;> simp only [cost] <;> omega
    omega
  | succ n ih =>
    -- What is left of the depth, behind a part that took a token.
    have later : ∀ {k : Nat} {part g : Form P} {rest : List Token},
        run grammar k part ts = .accepted rest → eats eatsPhrase part = true →
        cost eatsPhrase rank g ≤ step + (n - step * ts.length) →
        step * ts.length ≤ n → cost eatsPhrase rank g + step * rest.length ≤ n := by
      intro k part g rest hpart heat hg hle
      have hlt := length_lt_of_eats heats heat hpart
      have hmul : step * (rest.length + 1) ≤ step * ts.length := Nat.mul_le_mul_left step hlt
      rw [Nat.mul_add, Nat.mul_one] at hmul
      omega
    cases f with
    | empty => simp [run]
    | refuse => simp [run]
    | token c =>
      cases ts with
      | nil => simp [run]
      | cons t ts =>
        simp only [run]
        split <;> simp
    | seq a b =>
      simp only [isBounded, Bool.and_eq_true, decide_eq_true_eq] at hf
      obtain ⟨⟨ha, hb⟩, hcost⟩ := hf
      simp only [cost] at hn
      have hleft := @ih _ ts ha (by omega)
      simp only [run]
      split
      · next rest hrest =>
        refine ih hb ?_
        cases heat : eats eatsPhrase a with
        | true => exact later hrest heat (by omega) (by omega)
        | false =>
          rw [heat] at hn
          have hle := Nat.mul_le_mul_left step (length_le_of_accepted hrest)
          simp only [Bool.false_eq_true, if_false] at hn
          omega
      · exact hleft
    | ite test a b =>
      simp only [isBounded, Bool.and_eq_true] at hf
      obtain ⟨⟨ht, ha⟩, hb⟩ := hf
      simp only [cost] at hn
      have htest := @ih _ ts ht (by omega)
      simp only [run]
      split
      · exact ih ha (by omega)
      · exact ih hb (by omega)
      · next he => exact absurd he htest
    | loop test body =>
      have hloop := hf
      simp only [isBounded, Bool.and_eq_true] at hf
      obtain ⟨⟨ht, hb⟩, heat⟩ := hf
      simp only [cost] at hn
      have htest := @ih _ ts ht (by omega)
      have hbody := @ih _ ts hb (by omega)
      simp only [run]
      split
      · split
        · next rest hrest =>
          exact ih hloop (later hrest heat (by simp only [cost]; omega) (by omega))
        · exact hbody
      · simp
      · next he => exact absurd he htest
    | phrase p =>
      simp only [cost] at hn
      have hp := (hrank p).2
      simp only [run]
      exact ih (hrank p).1 (by omega)

end Form

namespace Source

/-! ## The grammar -/

/-- The phrases that take a token where they accept. -/
def eatsPhrase : Phrase → Bool
  | .generics => false
  | .whereClause => false
  | .assignTail _ => false
  | .rangeTail _ => false
  | .logicTail _ => false
  | .comparisonTail _ => false
  | .arithTail _ => false
  | .castTail => false
  | .trailers => false
  | _ => true

/-- The depth that each phrase needs up to its first token. -/
def rank : Phrase → Nat
  | .attribute => 2
  | .genericArgs => 2
  | .block => 2
  | .tree => 3
  | .generics => 3
  | .whereClause => 3
  | .castTail => 3
  | .field => 5
  | .variant => 5
  | .structTail => 6
  | .useTree => 7
  | .trailers => 7
  | .blockLike => 10
  | .bound => 15
  | .type _ => 17
  | .bounds _ => 18
  | .pattern => 17
  | .alternatives => 20
  | .tupleField => 20
  | .arithTail _ => 16
  | .comparisonTail _ => 18
  | .logicTail _ => 20
  | .rangeTail _ => 22
  | .assignTail _ => 24
  | .atom _ => 24
  | .unary _ => 29
  | .expr _ => 31
  | .logic _ => 31
  | .comparison _ => 31
  | .arith _ => 31
  | .itemBody => 26
  | .item => 28
  | .statement => 38

theorem eats_grammar (p : Phrase) (h : eatsPhrase p = true) :
    Form.eats eatsPhrase (grammar p) = true := by
  cases p
  case type s | bounds s | expr s | logic s | comparison s | arith s | unary s | atom s =>
    cases s <;> decide +kernel
  all_goals first
    | decide +kernel
    | cases h

/-- The form is followed to its end with the depth that `Form.depthFor` gives. -/
def settles (f : SForm) : Bool :=
  Form.isBounded eatsPhrase rank 256 f && Form.cost eatsPhrase rank f ≤ 1024

theorem isBounded_grammar (p : Phrase) : Form.isBounded eatsPhrase rank 256 (grammar p) = true ∧
    Form.cost eatsPhrase rank (grammar p) ≤ rank p := by
  cases p
  case type s | bounds s | expr s | logic s | comparison s | arith s | unary s | atom s |
      assignTail s | rangeTail s | logicTail s | comparisonTail s | arithTail s =>
    cases s <;> decide +kernel
  all_goals decide +kernel

/-- No form that settles exhausts the bound on the depth. -/
theorem run_ne_exhausted {f : SForm} (hf : settles f = true) (ts : List Token) :
    Form.run grammar (Form.depthFor ts) f ts ≠ .exhausted := by
  obtain ⟨hbounded, hcost⟩ := Bool.and_eq_true_iff.mp hf
  have hcost' := of_decide_eq_true hcost
  refine Form.run_ne_exhausted eats_grammar isBounded_grammar (by decide) hbounded ?_
  unfold Form.depthFor
  omega

end Source

end TaggedRows
