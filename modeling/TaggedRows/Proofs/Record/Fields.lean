import TaggedRows.Record.Basic

/-!
# The fields of records

A record is read and written by the names of its fields. Writing a field changes its own value
(`Record.get_set_self`) and nothing else (`Record.get_set_of_ne`, `Record.map_fst_set`).
`Record.setAll` writes one value into some fields, and `Record.assign` writes the values of another
record.
-/

namespace TaggedRows

namespace Record

variable (r : Record) {f g : Ident} (v : FieldValue)

theorem get_cons (p : Ident × FieldValue) :
    get (p :: r) f = if f = p.1 then p.2 else get r f := by
  obtain ⟨g, old⟩ := p
  by_cases h : f = g
  · rw [h, if_pos rfl, get, List.lookup_cons_self, Option.getD_some]
  · have hb : (f == g) = false := beq_eq_false_iff_ne.mpr h
    rw [if_neg h, get, List.lookup_cons, hb, get]

@[simp] theorem map_fst_set : (r.set f v).map (·.1) = r.map (·.1) := by
  simp [set, Function.comp_def]

theorem get_set_self (h : f ∈ r.map (·.1)) : (r.set f v).get f = v := by
  induction r with
  | nil => simp at h
  | cons p r ih =>
    rw [set, List.map_cons, get_cons]
    by_cases hp : f = p.1
    · simp [hp]
    · simp only [hp, if_false]
      exact ih (by simpa [hp] using h)

theorem get_set_of_ne (h : g ≠ f) : (r.set f v).get g = r.get g := by
  induction r with
  | nil => rfl
  | cons p r ih =>
    rw [set, List.map_cons, get_cons, get_cons]
    by_cases hp : g = p.1
    · have hne : ¬ p.1 = f := fun he => h (hp.trans he)
      simp [hp, hne]
    · simp only [hp, if_false]
      exact ih

/-- The record with a value in some fields. -/
def setAll (fields : List Ident) : Record := fields.foldl (fun r f => r.set f v) r

@[simp] theorem map_fst_setAll (fields : List Ident) :
    (r.setAll v fields).map (·.1) = r.map (·.1) := by
  induction fields generalizing r with
  | nil => rfl
  | cons f fields ih => exact (ih (r.set f v)).trans (r.map_fst_set v)

theorem get_setAll {fields : List Ident} (h : ∀ f ∈ fields, f ∈ r.map (·.1)) (g : Ident) :
    (r.setAll v fields).get g = if g ∈ fields then v else r.get g := by
  induction fields generalizing r with
  | nil => simp [setAll]
  | cons f fields ih =>
    have hf := h f (List.mem_cons_self ..)
    have hr := ih (r.set f v) fun f' hf' => by simpa using h f' (List.mem_cons_of_mem _ hf')
    refine hr.trans ?_
    by_cases hg : g ∈ fields
    · simp [hg]
    · by_cases hgf : g = f
      · subst hgf
        simp [hg, r.get_set_self v hf]
      · simp [hg, hgf, r.get_set_of_ne v hgf]

/-! ## Records over records -/

/-- The record with the values of another one in the fields that it has. -/
def assign (new : Record) : Record := r.map fun p => (p.1, (new.lookup p.1).getD p.2)

@[simp] theorem map_fst_assign (new : Record) : (r.assign new).map (·.1) = r.map (·.1) := by
  simp [assign, Function.comp_def]

theorem assign_nil : r.assign [] = r := List.map_id' r

/-- A field has the value that is written over it, or its own. -/
theorem get_assign (new : Record) (h : f ∈ r.map (·.1)) :
    (r.assign new).get f = (new.lookup f).getD (r.get f) := by
  induction r with
  | nil => cases h
  | cons p r ih =>
    rw [assign, List.map_cons, get_cons, get_cons]
    by_cases hp : f = p.1
    · rw [if_pos hp, if_pos hp, hp]
    · rw [if_neg hp, if_neg hp]
      exact ih ((List.mem_cons.mp h).resolve_left hp)

/-- Fields are written one after another, if none is written twice. -/
theorem assign_cons {new : Record} (h : f ∉ new.map (·.1)) :
    r.assign ((f, v) :: new) = (r.set f v).assign new := by
  have hn : new.lookup f = none := by
    rw [List.lookup_eq_none_iff]
    intro p hp
    exact bne_iff_ne.mpr fun he => h (he ▸ List.mem_map_of_mem hp)
  rw [assign, assign, set, List.map_map]
  refine List.map_congr_left fun p _ => ?_
  obtain ⟨g, old⟩ := p
  by_cases hg : g = f
  · simp [hg, hn]
  · have hb : (g == f) = false := beq_eq_false_iff_ne.mpr hg
    simp [hg, hb, List.lookup_cons]

/-- A record is made of the values of its fields. -/
theorem map_get_eq (h : (r.map (·.1)).Nodup) : (r.map (·.1)).map (fun f => (f, r.get f)) = r := by
  induction r with
  | nil => rfl
  | cons p r ih =>
    obtain ⟨hp, hn⟩ := List.nodup_cons.mp h
    rw [List.map_cons, List.map_cons, get_cons, if_pos rfl]
    refine congrArg (p :: ·) (Eq.trans ?_ (ih hn))
    refine List.map_congr_left fun f hf => ?_
    have hne : f ≠ p.1 := by
      rintro rfl
      exact hp hf
    rw [get_cons, if_neg hne]

/-- Records with the same fields and the same values are the same. -/
theorem ext_get {s : Record} (hn : (r.map (·.1)).Nodup) (hf : s.map (·.1) = r.map (·.1))
    (h : ∀ f ∈ r.map (·.1), s.get f = r.get f) : s = r := by
  have hs := map_get_eq s (by rw [hf]; exact hn)
  rw [← hs, hf]
  refine Eq.trans (List.map_congr_left fun f hm => ?_) (map_get_eq r hn)
  rw [h f hm]

/-- Writing the values that the fields have changes nothing. -/
theorem assign_get {new : Record} (hn : (r.map (·.1)).Nodup) (h : ∀ p ∈ new, p.2 = r.get p.1) :
    r.assign new = r := by
  refine ext_get r hn (r.map_fst_assign new) fun f hf => ?_
  rw [r.get_assign new hf]
  cases hl : new.lookup f with
  | none => rfl
  | some v =>
    obtain ⟨before, after, he, -⟩ := List.lookup_eq_some_iff.mp hl
    exact h (f, v) (by simp [he])

/-- One value likewise. -/
theorem set_get (hn : (r.map (·.1)).Nodup) (hf : f ∈ r.map (·.1)) : r.set f (r.get f) = r := by
  refine ext_get r hn (r.map_fst_set _) fun g _ => ?_
  by_cases hg : g = f
  · rw [hg, r.get_set_self _ hf]
  · exact r.get_set_of_ne _ hg

theorem get_map {α : Type} {field : α → Ident} {v : α → FieldValue} {l : List α}
    (hn : (l.map field).Nodup) {x : α} (hx : x ∈ l) :
    get (l.map fun x => (field x, v x)) (field x) = v x := by
  induction l with
  | nil => cases hx
  | cons y l ih =>
    obtain ⟨hy, hl⟩ := List.nodup_cons.mp hn
    rw [List.map_cons, get_cons]
    rcases List.mem_cons.mp hx with rfl | hx
    · exact if_pos rfl
    · have hne : field x ≠ field y := fun he => hy (he ▸ List.mem_map_of_mem hx)
      rw [if_neg hne]
      exact ih hl hx

end Record

end TaggedRows
