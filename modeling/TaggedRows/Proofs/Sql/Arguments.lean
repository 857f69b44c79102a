import TaggedRows.Proofs.Attempts
import TaggedRows.Sql.Argument

/-!
# Binding arguments

- **Single arguments** (`Argument.Converts`, `Argument.converted`): whether an argument is converted
  to a value, and to which one.
- **Rows of arguments** (`Argument.mapM_bound_eq_ok_iff`): a row is bound if each of its arguments
  is converted.
- **Statements** (`Argument.boundFor_eq_ok_iff`, `Argument.boundFor_eq_error`): a statement needs as
  many arguments as it has parameters, and fails with the first that is not converted.
-/

namespace TaggedRows.Sql.Argument

variable {a : Argument} {arguments : List Argument} {parameters : List Value} {v : Value}
  {needed : Nat} {e : Fault}

/-! ## Single arguments -/

/-- There is a value for the argument. -/
def Converts (a : Argument) : Prop := ∃ v, a.bound = .ok v

/-- The value that an argument is converted to, if it is. -/
def converted (a : Argument) : Value := a.bound.toOption.getD .null

theorem converted_eq (h : a.bound = .ok v) : a.converted = v := by
  rw [converted, h]
  rfl

theorem Converts.bound_eq (h : a.Converts) : a.bound = .ok a.converted := by
  obtain ⟨v, hv⟩ := h
  rw [hv, converted_eq hv]

theorem bound_integer {n : Int} (h : minInteger ≤ n ∧ n ≤ maxInteger) :
    (value (.integer n)).bound = .ok (.integer n) :=
  if_pos h

/-- An argument that is not converted says why. -/
theorem exists_of_bound_eq_error (h : a.bound = .error e) : ∃ message, e = .conversion message := by
  unfold bound at h
  split at h
  · split at h
    · cases h
    · exact ⟨_, (Except.error.inj h).symm⟩
  · cases h
  · exact ⟨_, (Except.error.inj h).symm⟩

theorem converts_or (a : Argument) :
    a.Converts ∨ ∃ message, a.bound = .error (.conversion message) := by
  cases h : a.bound with
  | ok v => exact .inl ⟨v, h⟩
  | error e =>
    obtain ⟨message, rfl⟩ := exists_of_bound_eq_error h
    exact .inr ⟨message, rfl⟩

/-! ## Rows of arguments -/

theorem mapM_bound_eq_ok_iff : arguments.mapM bound = .ok parameters ↔
    (∀ a ∈ arguments, a.Converts) ∧ parameters = arguments.map converted := by
  induction arguments generalizing parameters with
  | nil => simp [pure, Except.pure, eq_comm]
  | cons a arguments ih =>
    rw [mapM_cons_eq_ok, List.forall_mem_cons, List.map_cons]
    constructor
    · rintro ⟨v, vs, ha, hrest, rfl⟩
      obtain ⟨hall, rfl⟩ := ih.mp hrest
      exact ⟨⟨⟨v, ha⟩, hall⟩, by rw [converted_eq ha]⟩
    · rintro ⟨⟨ha, hall⟩, rfl⟩
      exact ⟨_, _, ha.bound_eq, ih.mpr ⟨hall, rfl⟩, rfl⟩

/-- A row that is not bound has an argument that is not converted. -/
theorem exists_of_mapM_bound_eq_error (h : arguments.mapM bound = .error e) :
    ∃ message, e = .conversion message := by
  obtain ⟨a, -, ha⟩ := exists_of_mapM_eq_error h
  exact exists_of_bound_eq_error ha

/-! ## Statements -/

theorem boundFor_eq_ok_iff : boundFor needed arguments = .ok parameters ↔
    arguments.length = needed ∧ arguments.mapM bound = .ok parameters := by
  unfold boundFor
  rw [bind_eq_ok]
  constructor
  · rintro ⟨values, hvalues, h⟩
    split at h
    · cases h
    · next hlength =>
      have hn := Decidable.not_not.mp hlength
      rw [← hn, List.take_length] at hvalues
      cases h
      exact ⟨hn, hvalues⟩
  · rintro ⟨rfl, h⟩
    refine ⟨parameters, by rw [List.take_length, h], ?_⟩
    rw [if_neg (not_not_intro rfl)]
    rfl

theorem converts_of_boundFor (h : boundFor needed arguments = .ok parameters) :
    ∀ a ∈ arguments, a.Converts :=
  (mapM_bound_eq_ok_iff.mp (boundFor_eq_ok_iff.mp h).2).1

theorem boundFor_length (h : arguments.mapM bound = .ok parameters) :
    boundFor parameters.length arguments = .ok parameters := by
  refine boundFor_eq_ok_iff.mpr ⟨?_, h⟩
  rw [(mapM_bound_eq_ok_iff.mp h).2, List.length_map]

/-- As many arguments as there are parameters fail with the first that is not converted. -/
theorem boundFor_eq_error (h : arguments.mapM bound = .error e) :
    boundFor arguments.length arguments = .error e := by
  rw [boundFor, List.take_length, h]
  rfl

end TaggedRows.Sql.Argument
