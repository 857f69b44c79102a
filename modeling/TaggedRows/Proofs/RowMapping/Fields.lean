import Mathlib.Data.List.Nodup
import TaggedRows.RowMapping

/-!
# The mapping that fields make

`RowMapping.ofFields` folds over the fields with a draft. Here its result is described by lists,
each of which takes what it needs from every field.

* `foldlM_add`: the fold fails exactly at a second key, and otherwise leaves `Draft.after`.
* `ofFields_eq`: so the first two keys are reported first, and then a missing table.
* `describes_of_ofFields`: every part of a mapping in terms of the fields.
-/

namespace TaggedRows

/-! ## What one field contributes -/

namespace TaggedField

variable (f : TaggedField)

/-- The column that the field is stored in, if it is. -/
def stored? : Option MappedField := f.tag.column.map fun column => ⟨f.ident, column⟩

/-- The field as the key. -/
def storedKey? : Option MappedField := if f.tag.isKey then f.stored? else none

/-- The field as a column besides the key. -/
def storedPlain? : Option MappedField := if f.tag.isKey then none else f.stored?

/-- The column of the field, if it is one that updates leave alone. -/
def fixedColumn? : Option String := if f.tag.updatable then none else f.storedPlain?.map (·.column)

/-- The table that the field names, if the field is stored. -/
def storedTable? : Option String := f.tag.column.bind fun _ => f.tag.table

/-- The field, if it has the role. -/
def withRole? (role : AuditRole) : Option Ident :=
  if f.tag.audit = role then some f.ident else none

end TaggedField

namespace RowMapping

theorem mem_insertOrdered {s x : String} {l : List String} :
    x ∈ insertOrdered s l ↔ x = s ∨ x ∈ l := by
  induction l with
  | nil => simp [insertOrdered]
  | cons t ts ih =>
    rw [insertOrdered]
    split
    · simp
    · split
      · next h => subst h; simp
      · simp only [List.mem_cons, ih, or_left_comm]

/-! ## The fold over the fields -/

theorem filterMap_cons_eq {α β : Type} (g : α → Option β) (a : α) (l : List α) :
    (a :: l).filterMap g = (g a).toList ++ l.filterMap g := by
  cases h : g a <;> simp [h]

theorem getLast?_append_or {α : Type} (l₁ l₂ : List α) (before : Option α) :
    (l₁ ++ l₂).getLast?.or before = l₂.getLast?.or (l₁.getLast?.or before) := by
  rw [List.getLast?_append, Option.or_assoc]

theorem or_head?_append {α : Type} (before : Option α) (l₁ l₂ : List α) :
    before.or (l₁ ++ l₂).head? = (before.or l₁.head?).or l₂.head? := by
  rw [List.head?_append, Option.or_assoc]

/-- The draft with what some more fields say, where no second key is among them. -/
def Draft.after (d : Draft) (fields : List TaggedField) : Draft where
  stored := d.stored || fields.any (·.tag.isStored)
  table := (fields.filterMap (·.storedTable?)).getLast?.or d.table
  key := d.key.or (fields.filterMap (·.storedKey?)).head?
  columns := d.columns ++ fields.filterMap (·.storedPlain?)
  userAudit := (fields.filterMap (·.withRole? .user)).getLast?.or d.userAudit
  timeAudit := (fields.filterMap (·.withRole? .time)).getLast?.or d.timeAudit
  fixedColumns :=
    (fields.filterMap (·.fixedColumn?)).foldl (fun l s => insertOrdered s l) d.fixedColumns

/-- One field that is not a second key. -/
theorem Draft.add_eq_ok (type : Ident) (d : Draft) (f : TaggedField)
    (h : d.key = none ∨ f.storedKey? = none) : d.add type f = .ok (d.after [f]) := by
  obtain ⟨ident, column, isKey, table, audit, updatable⟩ := f
  simp only [Draft.add, Draft.addAudit, Draft.addStored, Draft.after]
  cases column <;> cases isKey <;> cases audit <;> cases updatable <;> cases table <;>
    simp_all [TaggedField.stored?, TaggedField.storedKey?, TaggedField.storedPlain?,
      TaggedField.fixedColumn?, TaggedField.storedTable?, TaggedField.withRole?,
      ColumnTag.isStored]

/-- A second key. -/
theorem Draft.add_eq_error {type : Ident} {d : Draft} {f : TaggedField} {first second : MappedField}
    (hd : d.key = some first) (hf : f.storedKey? = some second) :
    d.add type f = .error (.duplicateKey type.name first.field.name second.field.name) := by
  obtain ⟨ident, column, isKey, table, audit, updatable⟩ := f
  simp only [TaggedField.storedKey?, TaggedField.stored?] at hf
  cases column <;> cases isKey <;> simp at hf
  subst hf
  simp only [Draft.add, Draft.addAudit, Draft.addStored]
  cases audit <;> simp [hd]

theorem Draft.after_cons (d : Draft) (f : TaggedField) (fields : List TaggedField) :
    d.after (f :: fields) = (d.after [f]).after fields := by
  simp only [Draft.after, filterMap_cons_eq _ f, getLast?_append_or, or_head?_append,
    List.foldl_append, List.append_assoc, List.any_cons, Bool.or_assoc, List.filterMap_nil,
    List.append_nil, List.any_nil, Bool.or_false]

/-- The fold succeeds unless a second key comes. -/
theorem foldlM_add (type : Ident) (d : Draft) (fields : List TaggedField) :
    fields.foldlM (Draft.add type) d =
      match d.key.toList ++ fields.filterMap (·.storedKey?) with
      | first :: second :: _ => .error (.duplicateKey type.name first.field.name second.field.name)
      | _ => .ok (d.after fields) := by
  induction fields generalizing d with
  | nil =>
    have h : d.after [] = d := by simp [Draft.after]
    cases d.key <;> rw [h] <;> rfl
  | cons f fields ih =>
    rw [List.foldlM_cons, filterMap_cons_eq]
    cases hd : d.key with
    | none =>
      rw [Draft.add_eq_ok type d f (.inl hd), Draft.after_cons d f fields]
      refine (ih (d.after [f])).trans ?_
      simp [Draft.after, hd, filterMap_cons_eq]
    | some first =>
      cases hf : f.storedKey? with
      | none =>
        rw [Draft.add_eq_ok type d f (.inr hf), Draft.after_cons d f fields]
        refine (ih (d.after [f])).trans ?_
        simp [Draft.after, hd]
      | some second =>
        rw [Draft.add_eq_error hd hf]
        rfl

/-! ## The mapping -/

/-- A second key is reported first, then a missing table. -/
theorem ofFields_eq (type : Ident) (fields : List TaggedField) :
    ofFields type fields =
      match fields.filterMap (·.storedKey?) with
      | first :: second :: _ => .error (.duplicateKey type.name first.field.name second.field.name)
      | keys =>
        if !fields.any (·.tag.isStored) then .ok none
        else
          match (fields.filterMap (·.storedTable?)).getLast? with
          | none => .error (.missingTable type.name)
          | some table => .ok (some {
            ident := type
            modulePath := []
            table
            key := keys.head?
            columns := fields.filterMap (·.storedPlain?)
            userAudit := (fields.filterMap (·.withRole? .user)).getLast?
            timeAudit := (fields.filterMap (·.withRole? .time)).getLast?
            fixedColumns :=
              (fields.filterMap (·.fixedColumn?)).foldl (fun l s => insertOrdered s l) [] }) := by
  rw [ofFields, foldlM_add]
  simp only [Draft.empty, Option.toList_none, List.nil_append]
  split
  · rfl
  · simp only [Draft.after, Bool.false_or, Option.or_none, Option.none_or, List.nil_append]
    split
    · next hs => simp only [bind, Except.bind, pure, Except.pure, hs, if_true]
    · next hs =>
      simp only [bind, Except.bind, pure, Except.pure, hs]
      cases (fields.filterMap (·.storedTable?)).getLast? <;> rfl

/-- What a mapping says about the fields it was made from. -/
structure Describes (m : RowMapping) (type : Ident) (fields : List TaggedField) : Prop where
  ident : m.ident = type
  modulePath : m.modulePath = []
  table : (fields.filterMap (·.storedTable?)).getLast? = some m.table
  key : m.key.toList = fields.filterMap (·.storedKey?)
  columns : m.columns = fields.filterMap (·.storedPlain?)
  userAudit : m.userAudit = (fields.filterMap (·.withRole? .user)).getLast?
  timeAudit : m.timeAudit = (fields.filterMap (·.withRole? .time)).getLast?
  fixedColumns : ∀ c, c ∈ m.fixedColumns ↔ c ∈ fields.filterMap (·.fixedColumn?)

theorem mem_foldl_insertOrdered {x : String} {cs l : List String} :
    x ∈ cs.foldl (fun l s => insertOrdered s l) l ↔ x ∈ cs ∨ x ∈ l := by
  induction cs generalizing l with
  | nil => simp
  | cons c cs ih =>
    rw [List.foldl_cons, ih, mem_insertOrdered, List.mem_cons, or_left_comm, or_assoc]

theorem describes_of_ofFields {m : RowMapping} {type : Ident} {fields : List TaggedField}
    (h : ofFields type fields = .ok (some m)) : m.Describes type fields := by
  rw [ofFields_eq] at h
  split at h
  · cases h
  · next hk =>
    split at h
    · cases h
    · split at h
      · cases h
      · next table ht =>
        cases h
        refine ⟨rfl, rfl, ht, ?_, rfl, rfl, rfl, fun c => by simp [mem_foldl_insertOrdered]⟩
        match he : fields.filterMap (·.storedKey?) with
        | [] => simp [he]
        | [_] => simp [he]
        | first :: second :: rest => exact absurd he (hk first second rest)

end RowMapping

/-! ## The stored fields -/

section

variable (tagged : List TaggedField)

/-- The key, if there is one. -/
def keyFields : List MappedField := tagged.filterMap (·.storedKey?)

/-- The stored fields besides the key, as they are declared. -/
def plainFields : List MappedField := tagged.filterMap (·.storedPlain?)

end

theorem RowMapping.Describes.selected_eq {m : RowMapping} {type : Ident}
    {tagged : List TaggedField} (h : m.Describes type tagged) :
    m.selected = keyFields tagged ++ plainFields tagged := by
  rw [RowMapping.selected, h.key, h.columns]
  rfl

theorem TaggedField.field_of_stored? {f : TaggedField} {e : MappedField}
    (h : f.stored? = some e) : e.field = f.ident := by
  obtain ⟨column, -, rfl⟩ := Option.map_eq_some_iff.mp h
  rfl

theorem field_mem_of_mem_stored {tagged : List TaggedField} {e : MappedField}
    (h : e ∈ keyFields tagged ++ plainFields tagged) : e.field ∈ tagged.map (·.ident) := by
  rcases List.mem_append.mp h with h | h
  · obtain ⟨f, hf, he⟩ := List.mem_filterMap.mp h
    rw [TaggedField.field_of_stored? (Option.ite_none_right_eq_some.mp he).2]
    exact List.mem_map_of_mem hf
  · obtain ⟨f, hf, he⟩ := List.mem_filterMap.mp h
    rw [TaggedField.field_of_stored? (Option.ite_none_left_eq_some.mp he).2]
    exact List.mem_map_of_mem hf

/-- Updates write a column exactly if the tag of its field does not say otherwise. -/
theorem RowMapping.Describes.mem_updated_iff {m : RowMapping} {type : Ident}
    {tagged : List TaggedField} (h : m.Describes type tagged)
    (hn : (tagged.map (·.ident)).Nodup) (hc : (m.columns.map (·.column)).Nodup)
    {e : MappedField} (he : e ∈ m.columns) :
    e ∈ m.updated ↔ ∃ f ∈ tagged, f.ident = e.field ∧ f.tag.updatable = true := by
  have hsame : ∀ f ∈ tagged, ∀ g ∈ tagged, f.ident = g.ident → f = g :=
    fun f hf g hg => List.inj_on_of_nodup_map hn hf hg
  have hplain : ∀ {g : TaggedField} {a : MappedField}, g.storedPlain? = some a →
      a.field = g.ident := fun hg =>
    TaggedField.field_of_stored? (Option.ite_none_left_eq_some.mp hg).2
  have hfixed : e.column ∈ m.fixedColumns ↔
      ∃ f ∈ tagged, f.ident = e.field ∧ f.tag.updatable = false := by
    rw [h.fixedColumns, List.mem_filterMap]
    constructor
    · rintro ⟨f, hf, he'⟩
      obtain ⟨hu, he'⟩ := Option.ite_none_left_eq_some.mp he'
      obtain ⟨a, ha, hac⟩ := Option.map_eq_some_iff.mp he'
      have hmem : a ∈ m.columns := h.columns ▸ List.mem_filterMap.mpr ⟨f, hf, ha⟩
      have hae : a = e := List.inj_on_of_nodup_map hc hmem he hac
      exact ⟨f, hf, by rw [← hplain ha, hae], by simpa using hu⟩
    · rintro ⟨f, hf, hfe, hu⟩
      rw [h.columns] at he
      obtain ⟨g, hg, hge⟩ := List.mem_filterMap.mp he
      have hgf : g = f := hsame g hg f hf ((hplain hge).symm.trans hfe.symm)
      subst hgf
      exact ⟨g, hg, by simp [TaggedField.fixedColumn?, hu, hge]⟩
  have hex : ∃ f ∈ tagged, f.ident = e.field := by
    rw [h.columns] at he
    obtain ⟨g, hg, hge⟩ := List.mem_filterMap.mp he
    exact ⟨g, hg, (hplain hge).symm⟩
  rw [RowMapping.updated, List.mem_filter, Bool.not_eq_true', List.contains_eq_mem,
    decide_eq_false_iff_not, hfixed]
  constructor
  · rintro ⟨-, hnot⟩
    obtain ⟨f, hf, hfe⟩ := hex
    refine ⟨f, hf, hfe, Bool.not_eq_false _ |>.mp fun hu => hnot ⟨f, hf, hfe, hu⟩⟩
  · rintro ⟨f, hf, hfe, hu⟩
    refine ⟨he, ?_⟩
    rintro ⟨g, hg, hge, hgu⟩
    rw [hsame g hg f hf (hge.trans hfe.symm), hu] at hgu
    cases hgu

/-- No field is stored twice. -/
theorem nodup_fields {tagged : List TaggedField} (h : (tagged.map (·.ident)).Nodup) :
    ((keyFields tagged ++ plainFields tagged).map (·.field)).Nodup := by
  induction tagged with
  | nil => exact .nil
  | cons f tagged ih =>
    obtain ⟨hf, hn⟩ := List.nodup_cons.mp h
    have hnot : f.ident ∉ (keyFields tagged ++ plainFields tagged).map (·.field) := by
      intro hm
      obtain ⟨e, he, hfe⟩ := List.mem_map.mp hm
      have hin := field_mem_of_mem_stored he
      rw [hfe] at hin
      exact hf hin
    cases hs : f.stored? with
    | none =>
      have hk : f.storedKey? = none := by simp [TaggedField.storedKey?, hs]
      have hp : f.storedPlain? = none := by simp [TaggedField.storedPlain?, hs]
      simpa [keyFields, plainFields, hk, hp] using ih hn
    | some e =>
      have hfe := TaggedField.field_of_stored? hs
      by_cases hkey : f.tag.isKey = true
      · have hk : f.storedKey? = some e := by simp [TaggedField.storedKey?, hkey, hs]
        have hp : f.storedPlain? = none := by simp [TaggedField.storedPlain?, hkey]
        have he : keyFields (f :: tagged) ++ plainFields (f :: tagged) =
            e :: (keyFields tagged ++ plainFields tagged) := by
          simp [keyFields, plainFields, hk, hp]
        rw [he, List.map_cons, hfe]
        exact List.nodup_cons.mpr ⟨hnot, ih hn⟩
      · have hk : f.storedKey? = none := by simp [TaggedField.storedKey?, hkey]
        have hp : f.storedPlain? = some e := by simp [TaggedField.storedPlain?, hkey, hs]
        have he : keyFields (f :: tagged) ++ plainFields (f :: tagged) =
            keyFields tagged ++ e :: plainFields tagged := by
          simp [keyFields, plainFields, hk, hp]
        rw [he]
        refine (List.perm_middle.map _).nodup_iff.mpr ?_
        rw [List.map_cons, hfe]
        exact List.nodup_cons.mpr ⟨hnot, ih hn⟩

end TaggedRows
