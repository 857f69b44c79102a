import TaggedRows.Timestamp

/-!
# The calendar

The day with a number has that number (`CalendarDay.number_ofNumber`), and it exists
(`CalendarDay.isValid_ofNumber`).

An era of 400 years has four centuries of 25 groups of four years. Its years begin in March, so that
only the last day of one that has it is a leap day. `CalendarDay.IsPlace` is a day by century,
group, year and day of the year.
-/

namespace TaggedRows.CalendarDay

/-! ## Places in an era -/

/-- The year `100 * b + 4 * a + k` of an era has a day `s`; only leap years have a day 365. -/
structure IsPlace (b a k s : Int) : Prop where
  century : 0 ≤ b ∧ b ≤ 3
  group : 0 ≤ a ∧ a ≤ 24
  year : 0 ≤ k ∧ k ≤ 3
  day : 0 ≤ s ∧ s ≤ 365
  leap : s = 365 → k = 3 ∧ (a < 24 ∨ b = 3)

theorem exists_isPlace {d : Int} (h0 : 0 ≤ d) (h1 : d < 146097) :
    ∃ b a k s, IsPlace b a k s ∧ d = 36524 * b + 1461 * a + 365 * k + s := by
  obtain ⟨b, hb⟩ : ∃ b, b = min (d / 36524) 3 := ⟨_, rfl⟩
  obtain ⟨r, hr⟩ : ∃ r, r = d - 36524 * b := ⟨_, rfl⟩
  obtain ⟨a, ha⟩ : ∃ a, a = min (r / 1461) 24 := ⟨_, rfl⟩
  obtain ⟨q, hq⟩ : ∃ q, q = r - 1461 * a := ⟨_, rfl⟩
  obtain ⟨k, hk⟩ : ∃ k, k = min (q / 365) 3 := ⟨_, rfl⟩
  have hr0 : 0 ≤ r ∧ r ≤ 36524 ∧ (b < 3 → r < 36524) := by omega
  have hq0 : 0 ≤ q ∧ q ≤ 1460 ∧ (a = 24 → b < 3 → q < 1460) := by omega
  refine ⟨b, a, k, q - 365 * k, ⟨by omega, by omega, by omega, by omega, by omega⟩, by omega⟩

/-- The last day of an era counts as the only one of a fifth century. -/
theorem IsPlace.century_eq {b a k s d : Int} (h : IsPlace b a k s)
    (hd : d = 36524 * b + 1461 * a + 365 * k + s) : d / 36524 - d / 146096 = b := by
  obtain ⟨hb, ha, hk, hs, hl⟩ := h
  obtain ⟨r, hr⟩ : ∃ r, r = 1461 * a + 365 * k + s := ⟨_, rfl⟩
  have hrest : 0 ≤ r ∧ (r < 36524 ∨ (b = 3 ∧ r = 36524)) := by
    by_cases h365 : s = 365
    · have hlast := hl h365
      omega
    · omega
  have hdr : d = 36524 * b + r := by omega
  clear hd hr hl hs hk ha
  obtain ⟨h0, hlt | ⟨rfl, rfl⟩⟩ := hrest
  · have h4 : d / 146096 = 0 := Int.ediv_eq_zero_of_lt (by omega) (by omega)
    rw [h4]
    omega
  · rw [hdr]
    rfl

/-- A leap day before the end of a year is left out of its days. -/
theorem IsPlace.rest_bounds {b a k s q : Int} (h : IsPlace b a k s)
    (hq : q = 24 * b + a + 365 * k + s) : 0 ≤ s - q / 1460 ∧ s - q / 1460 ≤ 364 := by
  obtain ⟨hb, ha, hk, hs, hl⟩ := h
  have h0 : 0 ≤ q := by omega
  by_cases hlt : q < 1460
  · have h365 : s ≠ 365 := fun he => by
      have hyear := (hl he).1
      omega
    rw [Int.ediv_eq_zero_of_lt h0 hlt]
    omega
  · have hone : q / 1460 = 1 := by
      clear hl
      omega
    rw [hone]
    omega

/-- The year of an era is found by leaving the leap days before it out. -/
theorem year_eq {b a k s d : Int} (h : IsPlace b a k s)
    (hd : d = 36524 * b + 1461 * a + 365 * k + s) :
    (d - d / 1460 + d / 36524 - d / 146096) / 365 = 100 * b + 4 * a + k := by
  have hcentury := h.century_eq hd
  obtain ⟨q, hq⟩ : ∃ q, q = 24 * b + a + 365 * k + s := ⟨_, rfl⟩
  have hgroups : d / 1460 = 25 * b + a + q / 1460 := by
    have hdq : d = 1460 * (25 * b + a) + q := by omega
    rw [hdq, Int.add_comm, Int.add_mul_ediv_left _ _ (by decide), Int.add_comm]
  have hrest := h.rest_bounds hq
  have hdays : d - d / 1460 + d / 36524 - d / 146096 =
      s - q / 1460 + 365 * (100 * b + 4 * a + k) := by
    rw [hgroups]
    omega
  rw [hdays, Int.add_mul_ediv_left _ _ (by decide), Int.ediv_eq_zero_of_lt hrest.1 (by omega),
    Int.zero_add]

theorem dayOfYear_eq {b a k s d : Int} (h : IsPlace b a k s)
    (hd : d = 36524 * b + 1461 * a + 365 * k + s) :
    d - (365 * (100 * b + 4 * a + k) + (100 * b + 4 * a + k) / 4 -
      (100 * b + 4 * a + k) / 100) = s := by
  obtain ⟨⟨hb0, hb1⟩, ⟨ha0, ha1⟩, ⟨hk0, hk1⟩, ⟨hs0, hs1⟩, hl⟩ := h
  omega

/-- The day of a year that begins in March. -/
def ofDayOfYear (year s : Int) : CalendarDay :=
  let month := (5 * s + 2) / 153
  let month' := if month < 10 then month + 3 else month - 9
  ⟨year + (if month' ≤ 2 then 1 else 0), month'.toNat, (s - (153 * month + 2) / 5 + 1).toNat⟩

theorem exists_ofNumber (n : Int) : ∃ era b a k s, IsPlace b a k s ∧
    n = 146097 * era + (36524 * b + 1461 * a + 365 * k + s) - 719468 ∧
    ofNumber n = ofDayOfYear (100 * b + 4 * a + k + era * 400) s := by
  obtain ⟨era, hera⟩ : ∃ era, era = (n + 719468) / 146097 := ⟨_, rfl⟩
  obtain ⟨d, hd⟩ : ∃ d, d = n + 719468 - era * 146097 := ⟨_, rfl⟩
  obtain ⟨b, a, k, s, hp, hdp⟩ := exists_isPlace (d := d) (by omega) (by omega)
  refine ⟨era, b, a, k, s, hp, by omega, ?_⟩
  have hf : Int.fdiv (n + 719468) 146097 = era := by
    rw [hera, Int.fdiv_eq_ediv_of_nonneg _ (by decide)]
  simp only [ofNumber, hf, ← hd, year_eq hp hdp, dayOfYear_eq hp hdp]
  rfl

/-- month and day of a day of the year. -/
theorem ofDayOfYear_cases (year : Int) {s : Int} (h0 : 0 ≤ s) (h1 : s ≤ 365) :
    ∃ m : Nat, ∃ d : Nat, m < 12 ∧ 1 ≤ d ∧ s = ((153 * m + 2) / 5 + d - 1 : Nat) ∧
     s < ((153 * (m + 1) + 2) / 5 : Nat) ∧
     ofDayOfYear year s = (if m < 10 then ⟨year, m + 3, d⟩ else ⟨year + 1, m - 9, d⟩) := by
  obtain ⟨s, rfl⟩ := Int.eq_ofNat_of_zero_le h0
  refine ⟨(5 * s + 2) / 153, s - (153 * ((5 * s + 2) / 153) + 2) / 5 + 1, by omega, by omega,
    by omega, by omega, ?_⟩
  have hm : (5 * (s : Int) + 2) / 153 = ((5 * s + 2) / 153 : Nat) := by omega
  have hd : ((s : Int) - (153 * (((5 * s + 2) / 153 : Nat) : Int) + 2) / 5 + 1).toNat =
      s - (153 * ((5 * s + 2) / 153) + 2) / 5 + 1 := by omega
  simp only [ofDayOfYear, hm, hd]
  have h11 : (5 * s + 2) / 153 < 12 := by omega
  generalize (5 * s + 2) / 153 = m at h11
  by_cases hlt : m < 10
  · have hi : (m : Int) < 10 := by omega
    have h2 : ¬ (m : Int) + 3 ≤ 2 := by omega
    have hn : ((m : Int) + 3).toNat = m + 3 := by omega
    simp only [hlt, hi, h2, hn, if_true, if_false, Int.add_zero]
  · have hi : ¬ (m : Int) < 10 := by omega
    have h2 : (m : Int) - 9 ≤ 2 := by omega
    have hn : ((m : Int) - 9).toNat = m - 9 := by omega
    simp only [hlt, hi, h2, hn, if_true, if_false]

theorem number_ofDayOfYear {era b a k s : Int} (h : IsPlace b a k s) :
    (ofDayOfYear (100 * b + 4 * a + k + era * 400) s).number =
      146097 * era + (36524 * b + 1461 * a + 365 * k + s) - 719468 := by
  obtain ⟨⟨hb0, hb1⟩, ⟨ha0, ha1⟩, ⟨hk0, hk1⟩, ⟨hs0, hs1⟩, hl⟩ := h
  obtain ⟨m, d, hm, hd, hs, -, he⟩ := ofDayOfYear_cases (100 * b + 4 * a + k + era * 400) hs0 hs1
  rw [he]
  have hera : (100 * b + 4 * a + k + era * 400).fdiv 400 = era := by
    rw [Int.fdiv_eq_ediv_of_nonneg _ (by decide)]
    omega
  by_cases hlt : m < 10
  · have h3 : ¬ m + 3 ≤ 2 := by omega
    rw [if_pos hlt, number]
    simp only [h3, if_false, hera]
    have hm3 : m + 3 - 3 = m := by omega
    rw [hm3, ← hs]
    omega
  · have h2 : m - 9 ≤ 2 := by omega
    rw [if_neg hlt, number]
    have hy : 100 * b + 4 * a + k + era * 400 + 1 - 1 = 100 * b + 4 * a + k + era * 400 := by omega
    simp only [h2, if_true, hy, hera]
    have hm9 : m - 9 + 9 = m := by omega
    rw [hm9, ← hs]
    omega

theorem number_ofNumber (n : Int) : (ofNumber n).number = n := by
  obtain ⟨era, b, a, k, s, hp, hn, he⟩ := exists_ofNumber n
  rw [he, number_ofDayOfYear hp, hn]

theorem isLeapYear_of_place (era : Int) {b a k s : Int} (h : IsPlace b a k s) (hs : s = 365) :
    isLeapYear (100 * b + 4 * a + k + era * 400 + 1) = true := by
  obtain ⟨⟨hb0, hb1⟩, ⟨ha0, ha1⟩, -, -, hl⟩ := h
  obtain ⟨rfl, hc⟩ := hl hs
  have h4 : (100 * b + 4 * a + 3 + era * 400 + 1) % 4 = 0 := by omega
  have h100 : (100 * b + 4 * a + 3 + era * 400 + 1) % 100 ≠ 0 ∨
      (100 * b + 4 * a + 3 + era * 400 + 1) % 400 = 0 := by omega
  have hor : (decide ((100 * b + 4 * a + 3 + era * 400 + 1) % 100 ≠ 0) ||
      decide ((100 * b + 4 * a + 3 + era * 400 + 1) % 400 = 0)) = true := by
    rw [Bool.or_eq_true, decide_eq_true_eq, decide_eq_true_eq]
    exact h100
  rw [isLeapYear, hor, Bool.and_true]
  exact decide_eq_true h4

theorem daysInMonth_le (year : Int) (month : Nat) : daysInMonth year month ≤ 31 := by
  unfold daysInMonth
  split
  · split <;> decide
  · split <;> decide

/-- The months from March on have as many days as there are up to the next one; February is
last, and has the rest of the year. -/
theorem le_daysInMonth {year s : Int} {m d : Nat} (hm : m < 12)
    (hs : s = ((153 * m + 2) / 5 + d - 1 : Nat)) (hlt : s < ((153 * (m + 1) + 2) / 5 : Nat))
    (h365 : s ≤ 365) (hleap : s = 365 → isLeapYear (year + 1) = true) :
    d ≤ daysInMonth (if m < 10 then year else year + 1) (if m < 10 then m + 3 else m - 9) := by
  have hcases : m = 0 ∨ m = 1 ∨ m = 2 ∨ m = 3 ∨ m = 4 ∨ m = 5 ∨ m = 6 ∨ m = 7 ∨ m = 8 ∨ m = 9 ∨
      m = 10 ∨ m = 11 := by omega
  rcases hcases with rfl | rfl | rfl | rfl | rfl | rfl | rfl | rfl | rfl | rfl | rfl | rfl
  case inr.inr.inr.inr.inr.inr.inr.inr.inr.inr.inr =>
    by_cases hd : s = 365
    · simp [daysInMonth, hleap hd]
      omega
    · simp [daysInMonth]
      split <;> omega
  all_goals
    simp [daysInMonth]
    omega

theorem isValid_ofNumber {n : Int} (h0 : minYear ≤ (ofNumber n).year)
    (h1 : (ofNumber n).year ≤ maxYear) : (ofNumber n).isValid = true := by
  obtain ⟨era, b, a, k, s, hp, hn, he⟩ := exists_ofNumber n
  obtain ⟨m, d, hm, hd, hs, hlt, hc⟩ :=
    ofDayOfYear_cases (100 * b + 4 * a + k + era * 400) hp.day.1 hp.day.2
  have hle := le_daysInMonth hm hs hlt hp.day.2 (isLeapYear_of_place era hp)
  rw [he, hc] at h0 h1 ⊢
  by_cases h10 : m < 10
  · simp only [h10, if_true] at h0 h1 hle ⊢
    simp [isValid, h0, h1, hd, hle]
    omega
  · simp only [h10, if_false] at h0 h1 hle ⊢
    simp [isValid, h0, h1, hd, hle]
    omega

end TaggedRows.CalendarDay
