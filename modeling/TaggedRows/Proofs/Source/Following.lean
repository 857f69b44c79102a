import TaggedRows.Proofs.Source.Depth

/-!
# Following a form without a bound

`Source.follow` is how following a form of the source grammar ends when the depth is not bounded. It
has one equation for each kind of form, and forms that settle are followed to the same end with the
bound that the definitions use.

- **Outcomes** (`Outcome.andThen`, `Outcome.branch`): a form behind another one, and a choice by a
  test. Only the first part is looked at before it is known how it ends.
- **Equations** (`Source.follow_seq`, `Source.follow_ite`, `Source.follow_loop`, …).
- **Bounded runs** (`Source.takeForm?_eq_some`, `Source.isForm_iff`).
-/

namespace TaggedRows

namespace Outcome

/-- Goes on with what an accepted form leaves. -/
def andThen (o : Outcome) (next : List Token → Outcome) : Outcome :=
  match o with
  | .accepted rest => next rest
  | .refused => .refused
  | .exhausted => .exhausted

/-- Chooses by the outcome of a test. -/
def branch (test a b : Outcome) : Outcome :=
  match test with
  | .accepted _ => a
  | .refused => b
  | .exhausted => .exhausted

@[simp]
theorem andThen_accepted (rest : List Token) (next : List Token → Outcome) :
    (accepted rest).andThen next = next rest := rfl

@[simp]
theorem andThen_refused (next : List Token → Outcome) : refused.andThen next = refused := rfl

@[simp]
theorem branch_accepted (rest : List Token) (a b : Outcome) : (accepted rest).branch a b = a := rfl

@[simp]
theorem branch_refused (a b : Outcome) : refused.branch a b = b := rfl

/-- Accepts under a condition. -/
def acceptedIf (b : Bool) (rest : List Token) : Outcome := if b then .accepted rest else .refused

@[simp]
theorem acceptedIf_ne_exhausted (b : Bool) (rest : List Token) : acceptedIf b rest ≠ exhausted := by
  cases b <;> simp [acceptedIf]

theorem andThen_acceptedIf (a b : Bool) {mid rest : List Token} {next : List Token → Outcome}
    (h : a = true → next mid = acceptedIf b rest) :
    (acceptedIf a mid).andThen next = acceptedIf (a && b) rest := by
  cases a with
  | false => rfl
  | true => exact h rfl

theorem andThen_eq_accepted {o : Outcome} {next : List Token → Outcome} {rest : List Token} :
    o.andThen next = .accepted rest ↔ ∃ mid, o = .accepted mid ∧ next mid = .accepted rest := by
  cases o <;> simp [andThen]

theorem branch_eq_accepted {o a b : Outcome} {rest : List Token} :
    o.branch a b = .accepted rest ↔
      (∃ mid, o = .accepted mid) ∧ a = .accepted rest ∨ o = .refused ∧ b = .accepted rest := by
  cases o <;> simp [branch]

end Outcome

namespace Source

open Form Classical

/-- How following the form ends, with as much depth as that takes. -/
noncomputable def follow (f : SForm) (ts : List Token) : Outcome :=
  if h : ∃ n, run grammar n f ts ≠ .exhausted then run grammar h.choose f ts else .exhausted

variable {f a b test body : SForm} {c : TokenClass} {t : Token} {ts rest : List Token}

/-- From some depth on, nothing changes. -/
theorem exists_run_eq_follow (f : SForm) (ts : List Token) :
    ∃ bound, ∀ n, bound ≤ n → run grammar n f ts = follow f ts := by
  unfold follow
  split
  · next h => exact ⟨h.choose, fun n hn => run_mono grammar hn h.choose_spec⟩
  · next h =>
    refine ⟨0, fun n _ => ?_⟩
    exact Decidable.byContradiction fun hne => h ⟨n, hne⟩

theorem follow_of_run {n : Nat} {o : Outcome} (h : run grammar n f ts = o) (ho : o ≠ .exhausted) :
    follow f ts = o := by
  obtain ⟨bound, hbound⟩ := exists_run_eq_follow f ts
  rw [← hbound (max bound n) (Nat.le_max_left ..),
    run_mono grammar (Nat.le_max_right bound n) (h ▸ ho), h]

/-! ## Equations -/

@[simp]
theorem follow_empty : follow .empty ts = .accepted ts :=
  follow_of_run (n := 1) rfl (by simp)

@[simp]
theorem follow_refuse : follow .refuse ts = .refused :=
  follow_of_run (n := 1) rfl (by simp)

@[simp]
theorem follow_token_nil : follow (.token c) [] = .refused :=
  follow_of_run (n := 1) rfl (by simp)

@[simp]
theorem follow_token_cons :
    follow (.token c) (t :: ts) = if c.admits t then .accepted ts else .refused :=
  follow_of_run (n := 1) rfl (by split <;> simp)

@[simp]
theorem follow_seq : follow (.seq a b) ts = (follow a ts).andThen (follow b) := by
  obtain ⟨k, hseq⟩ := exists_run_eq_follow (.seq a b) ts
  obtain ⟨l, ha⟩ := exists_run_eq_follow a ts
  cases hfirst : follow a ts with
  | accepted rest =>
    obtain ⟨m, hb⟩ := exists_run_eq_follow b rest
    rw [← hseq (max k (max l m) + 1) (by omega), run, ha _ (by omega), hfirst]
    exact hb _ (by omega)
  | refused =>
    rw [← hseq (max k l + 1) (by omega), run, ha _ (by omega), hfirst]
    rfl
  | exhausted =>
    rw [← hseq (max k l + 1) (by omega), run, ha _ (by omega), hfirst]
    rfl

@[simp]
theorem follow_ite :
    follow (.ite test a b) ts = (follow test ts).branch (follow a ts) (follow b ts) := by
  obtain ⟨k, hite⟩ := exists_run_eq_follow (.ite test a b) ts
  obtain ⟨l, ht⟩ := exists_run_eq_follow test ts
  obtain ⟨m, ha⟩ := exists_run_eq_follow a ts
  obtain ⟨n, hb⟩ := exists_run_eq_follow b ts
  rw [← hite (max (max k l) (max m n) + 1) (by omega), run, ht _ (by omega), ha _ (by omega),
    hb _ (by omega)]
  cases follow test ts <;> rfl

theorem follow_loop : follow (.loop test body) ts = (follow test ts).branch
    ((follow body ts).andThen (follow (.loop test body))) (.accepted ts) := by
  obtain ⟨k, hloop⟩ := exists_run_eq_follow (.loop test body) ts
  obtain ⟨l, ht⟩ := exists_run_eq_follow test ts
  obtain ⟨m, hbody⟩ := exists_run_eq_follow body ts
  cases hfirst : follow body ts with
  | accepted rest =>
    obtain ⟨n, hrest⟩ := exists_run_eq_follow (.loop test body) rest
    rw [← hloop (max (max k l) (max m n) + 1) (by omega), run, ht _ (by omega),
      hbody _ (by omega), hfirst]
    simp only [hrest _ (show n ≤ max (max k l) (max m n) by omega)]
    cases follow test ts <;> rfl
  | refused =>
    rw [← hloop (max (max k l) m + 1) (by omega), run, ht _ (by omega), hbody _ (by omega), hfirst]
    cases follow test ts <;> rfl
  | exhausted =>
    rw [← hloop (max (max k l) m + 1) (by omega), run, ht _ (by omega), hbody _ (by omega), hfirst]
    cases follow test ts <;> rfl

theorem follow_phrase (p : Phrase) : follow (.phrase p) ts = follow (grammar p) ts := by
  obtain ⟨k, hp⟩ := exists_run_eq_follow (.phrase p) ts
  obtain ⟨l, hg⟩ := exists_run_eq_follow (grammar p) ts
  rw [← hp (max k l + 1) (by omega), run, hg _ (by omega)]

/-! ### Derived forms -/

theorem follow_list_cons (f g : SForm) (fs : List SForm) :
    follow (Form.list (f :: g :: fs)) ts =
      (follow f ts).andThen (follow (Form.list (g :: fs))) := by
  rw [Form.list, follow_seq]
  simp

theorem follow_list_singleton (f : SForm) : follow (Form.list [f]) ts = follow f ts := by
  rw [Form.list]

theorem follow_cases_cons (otherwise test f : SForm) (fs : List (SForm × SForm)) :
    follow (Form.cases otherwise ((test, f) :: fs)) ts =
      (follow test ts).branch (follow f ts) (follow (Form.cases otherwise fs) ts) := by
  rw [Form.cases, follow_ite]

theorem follow_cases_nil (otherwise : SForm) :
    follow (Form.cases otherwise []) ts = follow otherwise ts := by
  rw [Form.cases]

/-- None of the forms accepts here, as far as this depth tells. -/
def refusesAll (n : Nat) (fs : List SForm) (ts : List Token) : Bool :=
  fs.all fun f => run grammar n f ts = .refused

theorem follow_of_refusesAll {n : Nat} {fs : List SForm} (h : refusesAll n fs ts = true)
    (hf : f ∈ fs) : follow f ts = .refused :=
  follow_of_run (n := n) (of_decide_eq_true (List.all_eq_true.mp h f hf)) (by simp)

/-- The branch at a position is taken where its test is the first one that accepts. -/
theorem follow_cases_at {otherwise : SForm} {fs : List (SForm × SForm)} (k n : Nat)
    (hk : fs[k]? = some (test, f)) (hskip : refusesAll n ((fs.take k).map Prod.fst) ts = true)
    (htest : follow test ts = .accepted rest) :
    follow (Form.cases otherwise fs) ts = follow f ts := by
  induction fs generalizing k with
  | nil => cases hk
  | cons first fs ih =>
    rw [follow_cases_cons]
    cases k with
    | zero =>
      cases hk
      rw [htest, Outcome.branch_accepted]
    | succ k =>
      rw [follow_of_refusesAll hskip List.mem_cons_self, Outcome.branch_refused]
      exact ih k hk ((Bool.and_eq_true_iff.mp hskip).2)

/-- No branch is taken where every test refuses. -/
theorem follow_cases_otherwise {otherwise : SForm} {fs : List (SForm × SForm)} (n : Nat)
    (h : refusesAll n (fs.map Prod.fst) ts = true) :
    follow (Form.cases otherwise fs) ts = follow otherwise ts := by
  induction fs with
  | nil => exact follow_cases_nil otherwise
  | cons first fs ih =>
    rw [follow_cases_cons, follow_of_refusesAll h List.mem_cons_self, Outcome.branch_refused]
    exact ih (Bool.and_eq_true_iff.mp h).2

theorem follow_oneOf_cons (f g : SForm) (fs : List SForm) : follow (oneOf (f :: g :: fs)) ts =
    (follow f ts).branch (follow f ts) (follow (oneOf (g :: fs)) ts) := by
  rw [oneOf, follow_ite]
  simp

theorem follow_oneOf_singleton (f : SForm) : follow (oneOf [f]) ts = follow f ts := by
  rw [oneOf]

theorem follow_optIf :
    follow (optIf test f) ts = (follow test ts).branch (follow f ts) (.accepted ts) := by
  rw [optIf, follow_ite, follow_empty]

theorem follow_opt : follow (opt f) ts = (follow f ts).branch (follow f ts) (.accepted ts) := by
  rw [opt, follow_ite, follow_empty]

theorem follow_never : follow (never f) ts = (follow f ts).branch .refused (.accepted ts) := by
  rw [never, follow_ite, follow_empty, follow_refuse]

theorem follow_look : follow (look f) ts = (follow f ts).branch (.accepted ts) .refused := by
  rw [look, follow_ite, follow_empty, follow_refuse]

/-! ## Bounded runs -/

theorem follow_of_takeForm? (h : takeForm? f ts = some rest) : follow f ts = .accepted rest := by
  unfold takeForm? rest? at h
  split at h
  · next hrun =>
    cases h
    exact follow_of_run hrun (by simp)
  · cases h

theorem takeForm?_eq_some (hf : settles f = true) :
    takeForm? f ts = some rest ↔ follow f ts = .accepted rest := by
  refine ⟨follow_of_takeForm?, fun h => ?_⟩
  have hrun := follow_of_run rfl (run_ne_exhausted hf ts)
  unfold takeForm? rest?
  rw [← hrun, h]

/-- The whole sequence has a form. -/
theorem isForm_iff (hf : settles f = true) : isForm f ts = true ↔ follow f ts = .accepted [] := by
  unfold isForm accepts
  rw [beq_iff_eq]
  exact takeForm?_eq_some hf

end Source

end TaggedRows
