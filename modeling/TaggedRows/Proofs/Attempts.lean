/-!
# Computations that may fail

What the success of a sequence or of a list of attempts says about each of them, and which attempts
of a list do not matter.
-/

namespace TaggedRows

variable {ε α β : Type}

theorem bind_eq_ok {x : Except ε α} {f : α → Except ε β} {b : β} :
    (x >>= f) = .ok b ↔ ∃ a, x = .ok a ∧ f a = .ok b := by
  cases x with
  | error e => simp [bind, Except.bind]
  | ok a => simp [bind, Except.bind]

theorem map_eq_ok {x : Except ε α} {f : α → β} {b : β} :
    x.map f = .ok b ↔ ∃ a, x = .ok a ∧ f a = b := by
  cases x <;> simp [Except.map]

theorem map_eq_error {x : Except ε α} {f : α → β} {e : ε} :
    x.map f = .error e ↔ x = .error e := by
  cases x <;> simp [Except.map]

theorem toOption_eq_some {x : Except ε α} {a : α} : x.toOption = some a ↔ x = .ok a := by
  cases x <;> simp [Except.toOption]

/-- A list of attempts gives the results of all of them. -/
theorem mapM_cons_eq_ok {f : α → Except ε β} {a : α} {l : List α} {r : List β} :
    (a :: l).mapM f = .ok r ↔ ∃ b bs, f a = .ok b ∧ l.mapM f = .ok bs ∧ r = b :: bs := by
  rw [List.mapM_cons, bind_eq_ok]
  constructor
  · rintro ⟨b, hb, h⟩
    obtain ⟨bs, hbs, h⟩ := bind_eq_ok.mp h
    cases h
    exact ⟨b, bs, hb, hbs, rfl⟩
  · rintro ⟨b, bs, hb, hbs, rfl⟩
    exact ⟨b, hb, bind_eq_ok.mpr ⟨bs, hbs, rfl⟩⟩

/-- A list of attempts that all succeed succeeds. -/
theorem mapM_eq_ok_map {f : α → Except ε β} {g : α → β} {l : List α}
    (h : ∀ a ∈ l, f a = .ok (g a)) : l.mapM f = .ok (l.map g) := by
  induction l with
  | nil => rfl
  | cons a l ih =>
    have hl := ih fun b hb => h b (List.mem_cons_of_mem _ hb)
    exact mapM_cons_eq_ok.mpr ⟨_, _, h a (List.mem_cons_self ..), hl, rfl⟩

theorem mapM_congr {f g : α → Except ε β} {l : List α} (h : ∀ a ∈ l, f a = g a) :
    l.mapM f = l.mapM g := by
  induction l with
  | nil => rfl
  | cons a l ih =>
    rw [List.mapM_cons, List.mapM_cons, h a List.mem_cons_self,
      ih fun b hb => h b (List.mem_cons_of_mem a hb)]

/-- A list of attempts succeeds if they all do, each with the result in its place. -/
theorem mapM_eq_ok_iff {f : α → Except ε β} {l : List α} {r : List β} :
    l.mapM f = .ok r ↔ r.length = l.length ∧
      ∀ (i : Nat) a b, l[i]? = some a → r[i]? = some b → f a = .ok b := by
  induction l generalizing r with
  | nil =>
    rw [List.mapM_nil]
    constructor
    · intro h
      cases h
      exact ⟨rfl, by simp⟩
    · rintro ⟨h, -⟩
      rw [List.length_eq_zero_iff.mp h]
      rfl
  | cons a l ih =>
    rw [mapM_cons_eq_ok]
    constructor
    · rintro ⟨b, bs, hb, hbs, rfl⟩
      obtain ⟨hlength, hl⟩ := ih.mp hbs
      refine ⟨by rw [List.length_cons, List.length_cons, hlength], fun i x y hx hy => ?_⟩
      cases i with
      | zero =>
        cases hx
        cases hy
        exact hb
      | succ i => exact hl i x y hx hy
    · rintro ⟨hlength, hl⟩
      cases r with
      | nil => cases hlength
      | cons b bs =>
        exact ⟨b, bs, hl 0 a b rfl rfl, ih.mpr ⟨by simpa using hlength, fun i x y hx hy =>
          hl (i + 1) x y hx hy⟩, rfl⟩

theorem forM_eq_ok_iff {f : α → Except ε Unit} {l : List α} :
    l.forM f = .ok () ↔ ∀ a ∈ l, f a = .ok () := by
  induction l with
  | nil => exact ⟨fun _ _ h => absurd h List.not_mem_nil, fun _ => rfl⟩
  | cons a l ih =>
    rw [List.forall_mem_cons, ← ih]
    refine bind_eq_ok.trans ?_
    exact ⟨fun ⟨_, ha, hl⟩ => ⟨ha, hl⟩, fun ⟨ha, hl⟩ => ⟨(), ha, hl⟩⟩

/-- A list of attempts fails exactly if one of them does. -/
theorem exists_mapM_eq_error {f : α → Except ε β} {l : List α} :
    (∃ e, l.mapM f = .error e) ↔ ∃ a ∈ l, ∃ e, f a = .error e := by
  induction l with
  | nil => simp [pure, Except.pure]
  | cons a l ih =>
    simp only [List.mem_cons, exists_eq_or_imp, ← ih, List.mapM_cons]
    cases f a with
    | error e => simp [bind, Except.bind]
    | ok b => cases l.mapM f <;> simp [bind, Except.bind, pure, Except.pure]

/-- The failure of a list of attempts is that of one of them. -/
theorem exists_of_mapM_eq_error {f : α → Except ε β} {l : List α} {e : ε}
    (h : l.mapM f = .error e) : ∃ a ∈ l, f a = .error e := by
  induction l with
  | nil => cases h
  | cons a l ih =>
    rw [List.mapM_cons] at h
    cases ha : f a with
    | error e' =>
      rw [ha] at h
      cases h
      exact ⟨a, List.mem_cons_self, ha⟩
    | ok b =>
      cases hl : l.mapM f with
      | error e' =>
        rw [ha, hl] at h
        cases h
        obtain ⟨a', hm, ha'⟩ := ih hl
        exact ⟨a', List.mem_cons_of_mem a hm, ha'⟩
      | ok bs =>
        rw [ha, hl] at h
        cases h

/-- The first failure of a list of attempts is that of the list. -/
theorem mapM_eq_error_of_first {f : α → Except ε β} {before after : List α} {a : α} {e : ε}
    (hbefore : ∀ b ∈ before, ∃ r, f b = .ok r) (ha : f a = .error e) :
    (before ++ a :: after).mapM f = .error e := by
  induction before with
  | nil =>
    rw [List.nil_append, List.mapM_cons, ha]
    rfl
  | cons b before ih =>
    obtain ⟨⟨r, hr⟩, hbefore⟩ := List.forall_mem_cons.mp hbefore
    rw [List.cons_append, List.mapM_cons, hr, ih hbefore]
    rfl

/-- What a list of attempts gives comes from one of them. -/
theorem exists_of_mem_mapM {f : α → Except ε β} {l : List α} {r : List β}
    (h : l.mapM f = .ok r) {b : β} (hb : b ∈ r) : ∃ a ∈ l, f a = .ok b := by
  induction l generalizing r with
  | nil =>
    cases h
    simp at hb
  | cons a l ih =>
    obtain ⟨b', bs, ha, hbs, rfl⟩ := mapM_cons_eq_ok.mp h
    rcases List.mem_cons.mp hb with rfl | hb
    · exact ⟨a, List.mem_cons_self .., ha⟩
    · obtain ⟨a', hm, ha'⟩ := ih hbs hb
      exact ⟨a', List.mem_cons_of_mem _ hm, ha'⟩

/-! ## Attempts that may give nothing -/

variable {f : α → Except ε (Option β)} {a : α} {l : List α}

/-- What a list of attempts gives, less those that give nothing, is gathered one by one. -/
theorem gather_cons (f : α → Except ε (Option β)) (a : α) (l : List α) :
    ((a :: l).mapM f).map (List.filterMap id) =
      (f a).bind fun b => ((l.mapM f).map (List.filterMap id)).map (b.toList ++ ·) := by
  rw [List.mapM_cons]
  cases f a with
  | error e => rfl
  | ok b =>
    cases l.mapM f with
    | error e => rfl
    | ok bs => cases b <;> rfl

/-- Attempts that give nothing may be left out. -/
theorem gather_filter (keep : α → Bool) (h : ∀ a ∈ l, keep a = false → f a = .ok none) :
    (l.mapM f).map (List.filterMap id) = ((l.filter keep).mapM f).map (List.filterMap id) := by
  induction l with
  | nil => rfl
  | cons a l ih =>
    have ih := ih fun b hb => h b (List.mem_cons_of_mem a hb)
    rw [gather_cons, ih]
    cases hk : keep a with
    | false =>
      rw [List.filter_cons_of_neg (by simp [hk]), h a List.mem_cons_self hk]
      cases (l.filter keep).mapM f <;> rfl
    | true => rw [List.filter_cons_of_pos hk, gather_cons]

/-- Attempts that all give something. -/
theorem gather_map_some {g : α → Except ε β} (h : ∀ a ∈ l, f a = (g a).map some) :
    (l.mapM f).map (List.filterMap id) = l.mapM g := by
  induction l with
  | nil => rfl
  | cons a l ih =>
    rw [gather_cons, ih fun b hb => h b (List.mem_cons_of_mem a hb), h a List.mem_cons_self,
      List.mapM_cons]
    cases g a with
    | error e => rfl
    | ok b => cases l.mapM g <;> rfl

end TaggedRows
