import Mathlib.Data.List.Sort
import TaggedRows.SourceSet
import TaggedRows.Proofs.Attempts
import TaggedRows.Proofs.RowMapping.Fields

/-!
# The mapping of a struct, declared

What a struct is mapped to is said here without the fold over its fields: every part of a mapping
takes its own choice of the fields, in order (`Picks`), and every error has its own condition.

- **Attributes** (`Attribute.Reads`, `FieldText.Joins`, `taggedFields_of_joins`,
  `taggedFields_of_fault`): the tag attributes of a field say one text each, up to the first fault.
- **Mappings** (`Maps`, `ofFields_eq_some`): what the fields of a struct say of its mapping, each by
  the text of its tag.
- **Structs** (`Described`): the outcomes of a struct, the conditions of which exclude each other.
  They are what is computed (`mappingOfStruct_eq_iff`).
-/

namespace TaggedRows

/-! ## Choices from a list -/

section Picks

variable {α β : Type} {R : α → β → Prop} {as : List α} {bs : List β}

/-- The second list has, in order, what belongs to the members of the first that something belongs
to. -/
inductive Picks (R : α → β → Prop) : List α → List β → Prop
  | nil : Picks R [] []
  | take {a b as bs} (h : R a b) (rest : Picks R as bs) : Picks R (a :: as) (b :: bs)
  | skip {a as bs} (h : ∀ b, ¬ R a b) (rest : Picks R as bs) : Picks R (a :: as) bs

/-- A computed choice. -/
theorem picks_iff {g : α → Option β} (hg : ∀ a b, g a = some b ↔ R a b) :
    Picks R as bs ↔ as.filterMap g = bs := by
  constructor
  · intro h
    induction h with
    | nil => rfl
    | take h _ ih => rw [List.filterMap_cons_some ((hg _ _).mpr h), ih]
    | skip h _ ih =>
      rw [List.filterMap_cons_none (Option.eq_none_iff_forall_ne_some.mpr fun b hb =>
        h b ((hg _ _).mp hb)), ih]
  · rintro rfl
    induction as with
    | nil => exact .nil
    | cons a as ih =>
      cases ha : g a with
      | none =>
        rw [List.filterMap_cons_none ha]
        exact .skip (fun b hb => by simp [(hg a b).mpr hb] at ha) ih
      | some b =>
        rw [List.filterMap_cons_some ha]
        exact .take ((hg a b).mp ha) ih

theorem picks_nil_iff : Picks R as [] ↔ ∀ a ∈ as, ∀ b, ¬ R a b := by
  constructor
  · intro h
    induction as with
    | nil => simp
    | cons a as ih =>
      cases h with
      | skip ha hrest => exact List.forall_mem_cons.mpr ⟨ha, ih hrest⟩
  · intro h
    induction as with
    | nil => exact .nil
    | cons a as ih =>
      obtain ⟨ha, hrest⟩ := List.forall_mem_cons.mp h
      exact .skip ha (ih hrest)

end Picks

/-! ## Attributes -/

namespace Source

/-- What is said behind the name of a tag attribute: one string literal between delimiters. -/
inductive TagReading : List Token → Except AttributeFault String → Prop
  | text {d ts value spelling}
    (h : inside (.opening d :: ts) = [.literal ⟨.string value, spelling⟩]) :
    TagReading (.opening d :: ts) (.ok value)
  | bare : TagReading [] (.error .bare)
  | assigned {joint ts} : TagReading (.punct '=' joint :: ts) (.error .assigned)
  | empty {d ts} (h : inside (.opening d :: ts) = []) :
    TagReading (.opening d :: ts) (.error .empty)
  | surplus {d ts value spelling next rest}
    (h : inside (.opening d :: ts) = .literal ⟨.string value, spelling⟩ :: next :: rest) :
    TagReading (.opening d :: ts) (.error .surplus)
  | notAString {d ts first rest} (h : inside (.opening d :: ts) = first :: rest)
    (hn : ∀ value spelling, first ≠ .literal ⟨.string value, spelling⟩) :
    TagReading (.opening d :: ts) (.error .notAString)

/-- The attribute carries a tag, or should. -/
def Attribute.Reads (a : Attribute) (reading : Except AttributeFault String) : Prop :=
  ∃ rest, a.content = .word (.plain tagAttribute) :: rest ∧ TagReading rest reading

/-- A tag attribute that is not exactly one string literal. -/
def Attribute.IsFaulty (a : Attribute) : Prop := ∃ fault, a.Reads (.error fault)

theorem reads_of_tagOfAttribute? {a : Attribute} {reading : Except AttributeFault String}
    (h : tagOfAttribute? a = some reading) : a.Reads reading := by
  unfold tagOfAttribute? at h
  split at h
  next id rest hc =>
    split at h
    next hid =>
      subst hid
      refine ⟨rest, hc, ?_⟩
      split at h
      · cases h
        exact .bare
      · cases h
        exact .assigned
      · next d args =>
        split at h
        next hi =>
          cases h
          exact .empty hi
        next hi =>
          cases h
          exact .text hi
        next value spelling tail hone hi =>
          cases h
          cases tail with
          | nil => exact (hone rfl).elim
          | cons next tail => exact .surplus hi
        next hnil hone hstring =>
          cases h
          obtain ⟨first, rest, hi⟩ := List.exists_cons_of_ne_nil hnil
          refine .notAString hi fun value spelling hf => hstring value spelling rest ?_
          rw [hi, hf]
      · cases h
    next => cases h
  next => cases h

theorem tagOfAttribute?_of_reads {a : Attribute} {reading : Except AttributeFault String}
    (h : a.Reads reading) : tagOfAttribute? a = some reading := by
  obtain ⟨rest, hc, hr⟩ := h
  unfold tagOfAttribute?
  rw [hc]
  cases hr with
  | text h => simp_all [inside]
  | bare => rfl
  | assigned => rfl
  | empty h => simp_all [inside]
  | surplus h => simp_all [inside]
  | notAString h hn =>
    simp only [inside, List.drop_one, List.tail_cons] at h
    simp only [if_true, h]
    split
    · contradiction
    · next hs =>
      cases hs
      exact absurd rfl (hn _ _)
    · next hs =>
      cases hs
      exact absurd rfl (hn _ _)
    · rfl

theorem tagOfAttribute?_eq_some {a : Attribute} {reading : Except AttributeFault String} :
    tagOfAttribute? a = some reading ↔ a.Reads reading :=
  ⟨reads_of_tagOfAttribute?, tagOfAttribute?_of_reads⟩

end Source

/-! ## Tags -/

open Source

/-- A field and the text of its tag. -/
structure FieldText where
  ident : Ident
  text : String

/-- The text of a tag is that of all its attributes, separated by spaces. None of them is faulty. -/
structure FieldText.Joins (f : FieldDecl) (t : FieldText) : Prop where
  ident : t.ident = f.ident
  sound : ∀ a ∈ f.attributes, ¬ a.IsFaulty
  text : ∃ parts, Picks (fun a part => a.Reads (.ok part)) f.attributes parts ∧
    t.text = " ".intercalate parts

section

variable {type : Ident} {f : FieldDecl} {t : FieldText} {fields : List FieldDecl}
  {texts : List FieldText}

theorem tagOfField_eq (type : Ident) (f : FieldDecl) : tagOfField type f =
    ((f.attributes.filterMap tagOfAttribute?).mapM
      (Except.mapError (Failure.invalidAttribute type.name f.ident.name))).map
        (" ".intercalate ·) := by
  rw [tagOfField, mapM_congr (g := Except.mapError (.invalidAttribute type.name f.ident.name))
    fun reading _ => by cases reading <;> rfl]
  cases (f.attributes.filterMap tagOfAttribute?).mapM
    (Except.mapError (Failure.invalidAttribute type.name f.ident.name)) <;> rfl

theorem exists_ok_of_sound {as : List Attribute} (h : ∀ a ∈ as, ¬ a.IsFaulty)
    {reading : Except AttributeFault String} (hr : reading ∈ as.filterMap tagOfAttribute?) :
    ∃ part, reading = .ok part := by
  obtain ⟨a, ha, hreads⟩ := List.mem_filterMap.mp hr
  cases reading with
  | error fault => exact absurd ⟨fault, reads_of_tagOfAttribute? hreads⟩ (h a ha)
  | ok part => exact ⟨part, rfl⟩

/-- Sound attributes are read one by one. -/
theorem mapM_mapError_of_ok {readings : List (Except AttributeFault String)}
    (h : ∀ reading ∈ readings, ∃ part, reading = .ok part) (wrap : AttributeFault → Failure) :
    readings.mapM (Except.mapError wrap) = .ok (readings.filterMap Except.toOption) := by
  induction readings with
  | nil => rfl
  | cons reading readings ih =>
    obtain ⟨⟨part, rfl⟩, hrest⟩ := List.forall_mem_cons.mp h
    exact mapM_cons_eq_ok.mpr ⟨part, _, rfl, ih hrest, rfl⟩

theorem picks_parts_iff {as : List Attribute} {parts : List String} :
    Picks (fun a part => a.Reads (.ok part)) as parts ↔
      (as.filterMap tagOfAttribute?).filterMap Except.toOption = parts := by
  rw [List.filterMap_filterMap]
  refine picks_iff fun a part => ?_
  simp [Option.bind_eq_some_iff, toOption_eq_some, tagOfAttribute?_eq_some]

theorem tagOfField_of_joins (h : FieldText.Joins f t) : tagOfField type f = .ok t.text := by
  obtain ⟨parts, hparts, ht⟩ := h.text
  rw [tagOfField_eq, mapM_mapError_of_ok (fun _ => exists_ok_of_sound h.sound),
    picks_parts_iff.mp hparts, ht]
  rfl

/-- The text of a sound tag can be joined. -/
theorem exists_joins (h : ∀ a ∈ f.attributes, ¬ a.IsFaulty) : ∃ t, FieldText.Joins f t :=
  ⟨⟨f.ident, _⟩, rfl, h, _, picks_parts_iff.mpr rfl, rfl⟩

/-- The first faulty attribute of a field. -/
theorem tagOfField_of_fault {earlier later : List Attribute} {a : Attribute}
    {fault : AttributeFault} (hattributes : f.attributes = earlier ++ a :: later)
    (hearlier : ∀ b ∈ earlier, ¬ b.IsFaulty) (hfault : a.Reads (.error fault)) :
    tagOfField type f = .error (.invalidAttribute type.name f.ident.name fault) := by
  have hfails : (earlier.filterMap tagOfAttribute? ++
      .error fault :: later.filterMap tagOfAttribute?).mapM
        (Except.mapError (Failure.invalidAttribute type.name f.ident.name)) =
      .error (.invalidAttribute type.name f.ident.name fault) := by
    refine mapM_eq_error_of_first (fun reading hreading => ?_) rfl
    obtain ⟨part, rfl⟩ := exists_ok_of_sound hearlier hreading
    exact ⟨part, rfl⟩
  rw [tagOfField_eq, hattributes, List.filterMap_append,
    List.filterMap_cons_some (tagOfAttribute?_of_reads hfault), hfails]
  rfl

/-- The field with the meaning of its tag. -/
def FieldText.tagged (t : FieldText) : TaggedField := ⟨t.ident, .ofTag t.text⟩

theorem taggedFields_of_joins (h : List.Forall₂ FieldText.Joins fields texts) :
    taggedFields type fields = .ok (texts.map FieldText.tagged) := by
  induction h with
  | nil => rfl
  | cons hjoins _ ih =>
    refine mapM_cons_eq_ok.mpr ⟨_, _, ?_, ih, rfl⟩
    rw [tagOfField_of_joins hjoins, ← hjoins.ident]
    rfl

theorem taggedFields_of_fault {before after : List FieldDecl} {earlier later : List Attribute}
    {a : Attribute} {fault : AttributeFault} (hattributes : f.attributes = earlier ++ a :: later)
    (hbefore : ∀ g ∈ before, ∀ b ∈ g.attributes, ¬ b.IsFaulty)
    (hearlier : ∀ b ∈ earlier, ¬ b.IsFaulty) (hfault : a.Reads (.error fault)) :
    taggedFields type (before ++ f :: after) =
      .error (.invalidAttribute type.name f.ident.name fault) := by
  refine mapM_eq_error_of_first (fun g hg => ?_) ?_
  · obtain ⟨t, ht⟩ := exists_joins (hbefore g hg)
    rw [tagOfField_of_joins ht]
    exact ⟨_, rfl⟩
  · rw [tagOfField_of_fault hattributes hearlier hfault]
    rfl

/-- The first member of a list with a property. -/
theorem exists_first {α : Type} (p : α → Prop) (l : List α) : (∀ a ∈ l, ¬ p a) ∨
    ∃ before a after, l = before ++ a :: after ∧ (∀ b ∈ before, ¬ p b) ∧ p a := by
  induction l with
  | nil => exact .inl (by simp)
  | cons a l ih =>
    by_cases ha : p a
    · exact .inr ⟨[], a, l, rfl, by simp, ha⟩
    · rcases ih with hnone | ⟨before, b, after, rfl, hbefore, hb⟩
      · exact .inl (List.forall_mem_cons.mpr ⟨ha, hnone⟩)
      · exact .inr ⟨a :: before, b, after, rfl, List.forall_mem_cons.mpr ⟨ha, hbefore⟩, hb⟩

theorem exists_forall₂_joins (h : ∀ f ∈ fields, ∀ a ∈ f.attributes, ¬ a.IsFaulty) :
    ∃ texts, List.Forall₂ FieldText.Joins fields texts := by
  induction fields with
  | nil => exact ⟨[], .nil⟩
  | cons f fields ih =>
    obtain ⟨hf, hfields⟩ := List.forall_mem_cons.mp h
    obtain ⟨t, ht⟩ := exists_joins hf
    obtain ⟨texts, htexts⟩ := ih hfields
    exact ⟨t :: texts, .cons ht htexts⟩

end

/-! ## Mappings -/

namespace FieldText

variable (t : FieldText)

/-- The field is stored in the column of the entry: the value of `sql` in its tag, if not empty. -/
def StoredAs (entry : MappedField) : Prop :=
  entry.field = t.ident ∧ Tag.lookup t.text "sql" = some entry.column ∧ entry.column ≠ ""

/-- The tag has a value for `key`. -/
def MarksKey : Prop := ∃ value, Tag.lookup t.text "key" = some value ∧ value ≠ ""

def StoredAsKey (entry : MappedField) : Prop := t.StoredAs entry ∧ t.MarksKey

def StoredAsColumn (entry : MappedField) : Prop := t.StoredAs entry ∧ ¬ t.MarksKey

/-- The field is stored and names the table. -/
def NamesTable (table : String) : Prop :=
  (∃ entry, t.StoredAs entry) ∧ Tag.lookup t.text "table" = some table ∧ table ≠ ""

/-- The tag gives the field a role in the audit, stored or not. -/
def HasRole (role : String) (ident : Ident) : Prop :=
  ident = t.ident ∧ Tag.lookup t.text "audit" = some role

/-- The tag takes the column of the field out of updates. -/
def ForbidsUpdate : Prop :=
  ∃ value ∈ ["0", "f", "F", "FALSE", "false", "False"], Tag.lookup t.text "update" = some value

end FieldText

/-- The mapping that the tags of fields make of a type. -/
structure Maps (type : Ident) (texts : List FieldText) (m : RowMapping) : Prop where
  ident : m.ident = type
  modulePath : m.modulePath = []
  table : ∃ tables, Picks FieldText.NamesTable texts tables ∧ tables.getLast? = some m.table
  key : Picks FieldText.StoredAsKey texts m.key.toList
  columns : Picks FieldText.StoredAsColumn texts m.columns
  userAudit : ∃ users, Picks (FieldText.HasRole · "user") texts users ∧
    m.userAudit = users.getLast?
  timeAudit : ∃ times, Picks (FieldText.HasRole · "time") texts times ∧
    m.timeAudit = times.getLast?
  fixedColumns : ∀ column, column ∈ m.fixedColumns ↔
    ∃ t ∈ texts, t.ForbidsUpdate ∧ ∃ entry, t.StoredAsColumn entry ∧ entry.column = column
  /-- The columns that updates leave alone are in order, without repeats. -/
  ordered : m.fixedColumns.Pairwise (· < ·)

section

variable {type : Ident} {t : FieldText} {texts : List FieldText} {m : RowMapping}

theorem nonEmpty_eq_some {value : Option String} {text : String} :
    nonEmpty value = some text ↔ value = some text ∧ text ≠ "" := by
  rw [nonEmpty, Option.filter_eq_some_iff]
  simp

theorem column_eq_some {column : String} : t.tagged.tag.column = some column ↔
    Tag.lookup t.text "sql" = some column ∧ column ≠ "" :=
  nonEmpty_eq_some

theorem stored?_eq_some {entry : MappedField} :
    t.tagged.stored? = some entry ↔ t.StoredAs entry := by
  obtain ⟨field, column⟩ := entry
  rw [TaggedField.stored?, Option.map_eq_some_iff]
  simp only [column_eq_some, MappedField.mk.injEq]
  constructor
  · rintro ⟨_, h, rfl, rfl⟩
    exact ⟨rfl, h⟩
  · rintro ⟨rfl, h⟩
    exact ⟨column, h, rfl, rfl⟩

theorem isKey_iff : t.tagged.tag.isKey = true ↔ t.MarksKey := by
  refine Option.isSome_iff_exists.trans ?_
  simp only [nonEmpty_eq_some]
  rfl

theorem storedKey?_eq_some {entry : MappedField} :
    t.tagged.storedKey? = some entry ↔ t.StoredAsKey entry := by
  rw [TaggedField.storedKey?, Option.ite_none_right_eq_some, isKey_iff, stored?_eq_some, and_comm]
  rfl

theorem storedPlain?_eq_some {entry : MappedField} :
    t.tagged.storedPlain? = some entry ↔ t.StoredAsColumn entry := by
  rw [TaggedField.storedPlain?, Option.ite_none_left_eq_some, isKey_iff, stored?_eq_some, and_comm]
  rfl

theorem isStored_iff : t.tagged.tag.isStored = true ↔ ∃ entry, t.StoredAs entry := by
  simp only [← stored?_eq_some, ← Option.isSome_iff_exists, TaggedField.stored?,
    Option.isSome_map]
  rfl

theorem storedTable?_eq_some {table : String} :
    t.tagged.storedTable? = some table ↔ t.NamesTable table := by
  rw [TaggedField.storedTable?, Option.bind_eq_some_iff, FieldText.NamesTable, ← isStored_iff,
    ColumnTag.isStored, Option.isSome_iff_exists]
  have htable : t.tagged.tag.table = some table ↔
      Tag.lookup t.text "table" = some table ∧ table ≠ "" := nonEmpty_eq_some
  rw [htable, exists_and_right]

/-- A role has one spelling. -/
theorem withRole?_eq_some {role : AuditRole} {spelling : String} {ident : Ident}
    (h : ∀ value, AuditRole.ofValue value = role ↔ value = some spelling) :
    t.tagged.withRole? role = some ident ↔ t.HasRole spelling ident := by
  have haudit : t.tagged.tag.audit = role ↔ Tag.lookup t.text "audit" = some spelling := h _
  rw [TaggedField.withRole?, Option.ite_none_right_eq_some, haudit, and_comm, Option.some.injEq,
    eq_comm]
  rfl

theorem ofValue_eq_user {value : Option String} :
    AuditRole.ofValue value = .user ↔ value = some "user" := by
  unfold AuditRole.ofValue
  split <;> simp_all

theorem ofValue_eq_time {value : Option String} :
    AuditRole.ofValue value = .time ↔ value = some "time" := by
  unfold AuditRole.ofValue
  split <;> simp_all

theorem parseBool_eq_false_iff {text : String} : parseBool text = some false ↔
    text ∈ ["0", "f", "F", "FALSE", "false", "False"] := by
  unfold parseBool
  split
  · next h =>
    simp only [List.mem_cons, List.not_mem_nil, or_false] at h
    rcases h with rfl | rfl | rfl | rfl | rfl | rfl <;> decide
  · split <;> simp_all

theorem updatable_eq_false_iff : t.tagged.tag.updatable = false ↔ t.ForbidsUpdate := by
  have hupdate : t.tagged.tag.updatable = false ↔
      (Tag.lookup t.text "update").bind parseBool = some false := by
    simp [FieldText.tagged, ColumnTag.ofTag]
  rw [hupdate, Option.bind_eq_some_iff]
  simp only [parseBool_eq_false_iff, FieldText.ForbidsUpdate, and_comm]

theorem fixedColumn?_eq_some {column : String} : t.tagged.fixedColumn? = some column ↔
    t.ForbidsUpdate ∧ ∃ entry, t.StoredAsColumn entry ∧ entry.column = column := by
  rw [TaggedField.fixedColumn?, Option.ite_none_left_eq_some, Bool.not_eq_true,
    updatable_eq_false_iff, Option.map_eq_some_iff]
  simp only [storedPlain?_eq_some]

/-- Texts are kept in order. -/
theorem pairwise_insertOrdered {s : String} {l : List String} (h : l.Pairwise (· < ·)) :
    (RowMapping.insertOrdered s l).Pairwise (· < ·) := by
  induction l with
  | nil => simp [RowMapping.insertOrdered]
  | cons first rest ih =>
    obtain ⟨hfirst, hrest⟩ := List.pairwise_cons.mp h
    rw [RowMapping.insertOrdered]
    split
    · next hs =>
      refine List.pairwise_cons.mpr ⟨List.forall_mem_cons.mpr ⟨hs, fun x hx => ?_⟩, h⟩
      exact String.lt_trans hs (hfirst x hx)
    split
    · exact h
    · next hs hne =>
      refine List.pairwise_cons.mpr ⟨fun x hx => ?_, ih hrest⟩
      rcases RowMapping.mem_insertOrdered.mp hx with rfl | hx
      · exact Decidable.byContradiction fun hlt =>
          hne (String.le_antisymm (String.not_lt.mp hlt) (String.not_lt.mp hs))
      · exact hfirst x hx

theorem pairwise_foldl_insertOrdered {cs l : List String} (h : l.Pairwise (· < ·)) :
    (cs.foldl (fun l s => RowMapping.insertOrdered s l) l).Pairwise (· < ·) := by
  induction cs generalizing l with
  | nil => exact h
  | cons c cs ih => exact ih (pairwise_insertOrdered h)

theorem pairwise_fixedColumns {fields : List TaggedField}
    (h : RowMapping.ofFields type fields = .ok (some m)) : m.fixedColumns.Pairwise (· < ·) := by
  rw [RowMapping.ofFields_eq] at h
  split at h
  · cases h
  split at h
  · cases h
  split at h
  · cases h
  · cases h
    exact pairwise_foldl_insertOrdered .nil

/-- A mapping that describes fields and keeps its columns in order is the one they make. -/
theorem ofFields_of_describes {fields : List TaggedField} (h : m.Describes type fields)
    (ho : m.fixedColumns.Pairwise (· < ·)) : RowMapping.ofFields type fields = .ok (some m) := by
  have hstored : fields.any (·.tag.isStored) = true := by
    obtain ⟨f, hf, htable⟩ := List.mem_filterMap.mp (List.mem_of_getLast? h.table)
    obtain ⟨column, hcolumn, -⟩ := Option.bind_eq_some_iff.mp htable
    exact List.any_eq_true.mpr ⟨f, hf, by simp [ColumnTag.isStored, hcolumn]⟩
  have hfixed : (fields.filterMap (·.fixedColumn?)).foldl
      (fun l s => RowMapping.insertOrdered s l) [] = m.fixedColumns := by
    refine (pairwise_foldl_insertOrdered .nil).eq_of_mem_iff ho fun column => ?_
    rw [h.fixedColumns, RowMapping.mem_foldl_insertOrdered]
    simp
  have hkey : (fields.filterMap (·.storedKey?)).head? = m.key := by
    rw [← h.key]
    cases m.key <;> rfl
  rw [RowMapping.ofFields_eq]
  split
  · next first second rest htwo =>
    rw [← h.key] at htwo
    cases hm : m.key <;> simp [hm] at htwo
  · simp only [hstored, h.table, hfixed, hkey, ← h.columns, ← h.userAudit, ← h.timeAudit]
    rw [← h.ident, ← h.modulePath]
    rfl

/-- A computed choice of fields, each with the meaning of its tag. -/
theorem picks_tagged_iff {β : Type} {R : FieldText → β → Prop} {g : TaggedField → Option β}
    {bs : List β} (hg : ∀ t b, g t.tagged = some b ↔ R t b) :
    Picks R texts bs ↔ (texts.map FieldText.tagged).filterMap g = bs := by
  rw [List.filterMap_map]
  exact picks_iff hg

theorem picks_key_iff {keys : List MappedField} : Picks FieldText.StoredAsKey texts keys ↔
    (texts.map FieldText.tagged).filterMap (·.storedKey?) = keys :=
  picks_tagged_iff fun _ _ => storedKey?_eq_some

theorem picks_table_iff {tables : List String} : Picks FieldText.NamesTable texts tables ↔
    (texts.map FieldText.tagged).filterMap (·.storedTable?) = tables :=
  picks_tagged_iff fun _ _ => storedTable?_eq_some

theorem any_isStored_iff : (texts.map FieldText.tagged).any (·.tag.isStored) = true ↔
    ∃ t ∈ texts, ∃ entry, t.StoredAs entry := by
  simp only [List.any_map, List.any_eq_true, Function.comp_apply, isStored_iff]

/-- The fields make a mapping exactly if it is the declared one. -/
theorem ofFields_eq_some : RowMapping.ofFields type (texts.map FieldText.tagged) = .ok (some m) ↔
    Maps type texts m := by
  have huser {users} : Picks (FieldText.HasRole · "user") texts users ↔
      (texts.map FieldText.tagged).filterMap (·.withRole? .user) = users :=
    picks_tagged_iff fun _ _ => withRole?_eq_some fun _ => ofValue_eq_user
  have htime {times} : Picks (FieldText.HasRole · "time") texts times ↔
      (texts.map FieldText.tagged).filterMap (·.withRole? .time) = times :=
    picks_tagged_iff fun _ _ => withRole?_eq_some fun _ => ofValue_eq_time
  have hcolumns {columns} : Picks FieldText.StoredAsColumn texts columns ↔
      (texts.map FieldText.tagged).filterMap (·.storedPlain?) = columns :=
    picks_tagged_iff fun _ _ => storedPlain?_eq_some
  have hfixed {column : String} :
      column ∈ (texts.map FieldText.tagged).filterMap (·.fixedColumn?) ↔
        ∃ t ∈ texts, t.ForbidsUpdate ∧ ∃ entry, t.StoredAsColumn entry ∧ entry.column = column := by
    simp only [List.filterMap_map, List.mem_filterMap, Function.comp_apply, fixedColumn?_eq_some]
  constructor
  · intro h
    have hd := RowMapping.describes_of_ofFields h
    exact {
      ident := hd.ident
      modulePath := hd.modulePath
      table := ⟨_, picks_table_iff.mpr rfl, hd.table⟩
      key := picks_key_iff.mpr hd.key.symm
      columns := hcolumns.mpr hd.columns.symm
      userAudit := ⟨_, huser.mpr rfl, hd.userAudit⟩
      timeAudit := ⟨_, htime.mpr rfl, hd.timeAudit⟩
      fixedColumns := fun column => (hd.fixedColumns column).trans hfixed
      ordered := pairwise_fixedColumns h }
  · intro h
    obtain ⟨tables, htables, htable⟩ := h.table
    obtain ⟨users, husers, hu⟩ := h.userAudit
    obtain ⟨times, htimes, ht⟩ := h.timeAudit
    refine ofFields_of_describes ?_ h.ordered
    exact {
      ident := h.ident
      modulePath := h.modulePath
      table := by rw [picks_table_iff.mp htables, htable]
      key := (picks_key_iff.mp h.key).symm
      columns := (hcolumns.mp h.columns).symm
      userAudit := by rw [huser.mp husers, hu]
      timeAudit := by rw [htime.mp htimes, ht]
      fixedColumns := fun column => (h.fixedColumns column).trans hfixed.symm }

theorem ofFields_of_two_keys {first second : MappedField} {rest : List MappedField}
    (h : Picks FieldText.StoredAsKey texts (first :: second :: rest)) :
    RowMapping.ofFields type (texts.map FieldText.tagged) =
      .error (.duplicateKey type.name first.field.name second.field.name) := by
  rw [RowMapping.ofFields_eq, picks_key_iff.mp h]

theorem ofFields_of_unstored (h : ∀ t ∈ texts, ∀ entry, ¬ t.StoredAs entry) :
    RowMapping.ofFields type (texts.map FieldText.tagged) = .ok none := by
  have hkeys : Picks FieldText.StoredAsKey texts [] :=
    picks_nil_iff.mpr fun t ht entry hkey => h t ht entry hkey.1
  have hany : (texts.map FieldText.tagged).any (·.tag.isStored) = false := by
    rw [Bool.eq_false_iff, ne_eq, any_isStored_iff]
    rintro ⟨t, ht, entry, hentry⟩
    exact h t ht entry hentry
  rw [RowMapping.ofFields_eq, picks_key_iff.mp hkeys]
  simp [hany]

section

variable {keys : List MappedField} (hkeys : Picks FieldText.StoredAsKey texts keys)
  (hone : keys.length ≤ 1)
include hkeys hone

/-- With one key at most, a stored field and a table decide whether there is a mapping. -/
theorem ofFields_of_one_key (hstored : ∃ t ∈ texts, ∃ entry, t.StoredAs entry) :
    (∃ t ∈ texts, ∃ table, t.NamesTable table) ∧
        (∃ m, RowMapping.ofFields type (texts.map FieldText.tagged) = .ok (some m)) ∨
      (∀ t ∈ texts, ∀ table, ¬ t.NamesTable table) ∧
        RowMapping.ofFields type (texts.map FieldText.tagged) =
          .error (.missingTable type.name) := by
  rw [RowMapping.ofFields_eq, picks_key_iff.mp hkeys, any_isStored_iff.mpr hstored]
  split
  · simp at hone
  simp only [Bool.not_true, Bool.false_eq_true, if_false]
  split
  · next hlast =>
    exact .inr ⟨picks_nil_iff.mp (picks_table_iff.mpr (List.getLast?_eq_none_iff.mp hlast)), rfl⟩
  · next table hlast =>
    refine .inl ⟨?_, _, rfl⟩
    have htable := List.mem_of_getLast? hlast
    rw [List.filterMap_map, List.mem_filterMap] at htable
    obtain ⟨t, ht, htable⟩ := htable
    exact ⟨t, ht, table, storedTable?_eq_some.mp htable⟩

theorem ofFields_of_no_table (hstored : ∃ t ∈ texts, ∃ entry, t.StoredAs entry)
    (htable : ∀ t ∈ texts, ∀ table, ¬ t.NamesTable table) :
    RowMapping.ofFields type (texts.map FieldText.tagged) = .error (.missingTable type.name) := by
  rcases ofFields_of_one_key hkeys hone hstored with ⟨⟨t, ht, table, hnames⟩, -⟩ | ⟨-, h⟩
  · exact absurd hnames (htable t ht table)
  · exact h

end

end

/-! ## Structs -/

/-- The outcomes of a struct. -/
inductive Described (decl : StructDecl) : Report (Option RowMapping) → Prop
  /-- A struct without named fields has no mapping. -/
  | positional (h : decl.fields = .positional) : Described decl ⟨[], .ok none⟩
  /-- The first faulty attribute comes before all other faults. -/
  | invalidAttribute {before f after earlier a later fault}
    (hfields : decl.fields = .named (before ++ f :: after))
    (hattributes : f.attributes = earlier ++ a :: later)
    (hbefore : ∀ g ∈ before, ∀ b ∈ g.attributes, ¬ b.IsFaulty)
    (hearlier : ∀ b ∈ earlier, ¬ b.IsFaulty) (hfault : a.Reads (.error fault)) :
    Described decl ⟨[], .error (.invalidAttribute decl.ident.name f.ident.name fault)⟩
  /-- Then the first two keys, if there are as many. -/
  | duplicateKey {fields texts first second rest} (hfields : decl.fields = .named fields)
    (htexts : List.Forall₂ FieldText.Joins fields texts)
    (hkeys : Picks FieldText.StoredAsKey texts (first :: second :: rest)) :
    Described decl
      ⟨[], .error (.duplicateKey decl.ident.name first.field.name second.field.name)⟩
  /-- A struct without stored fields has no mapping. -/
  | unstored {fields texts} (hfields : decl.fields = .named fields)
    (htexts : List.Forall₂ FieldText.Joins fields texts)
    (hstored : ∀ t ∈ texts, ∀ entry, ¬ t.StoredAs entry) : Described decl ⟨[], .ok none⟩
  | missingTable {fields texts keys} (hfields : decl.fields = .named fields)
    (htexts : List.Forall₂ FieldText.Joins fields texts)
    (hkeys : Picks FieldText.StoredAsKey texts keys) (hone : keys.length ≤ 1)
    (hstored : ∃ t ∈ texts, ∃ entry, t.StoredAs entry)
    (htable : ∀ t ∈ texts, ∀ table, ¬ t.NamesTable table) :
    Described decl ⟨[], .error (.missingTable decl.ident.name)⟩
  /-- A generic struct that could be mapped is left out, with one warning. -/
  | generic {fields texts m} (hfields : decl.fields = .named fields)
    (htexts : List.Forall₂ FieldText.Joins fields texts) (hmaps : Maps decl.ident texts m)
    (hgeneric : decl.isGeneric = true) :
    Described decl ⟨[.genericStruct decl.ident.name], .ok none⟩
  | mapped {fields texts m} (hfields : decl.fields = .named fields)
    (htexts : List.Forall₂ FieldText.Joins fields texts) (hmaps : Maps decl.ident texts m)
    (hgeneric : decl.isGeneric = false) : Described decl ⟨[], .ok (some m)⟩

section

variable {decl : StructDecl} {r : Report (Option RowMapping)}

/-- A described outcome is the computed one. -/
theorem mappingOfStruct_of_described (h : Described decl r) : mappingOfStruct decl = r := by
  unfold mappingOfStruct
  cases h with
  | positional h =>
    rw [h]
    rfl
  | invalidAttribute hfields hattributes hbefore hearlier hfault =>
    simp only [hfields, taggedFields_of_fault hattributes hbefore hearlier hfault]
    rfl
  | duplicateKey hfields htexts hkeys =>
    simp only [hfields, taggedFields_of_joins htexts, Except.bind, ofFields_of_two_keys hkeys]
    rfl
  | unstored hfields htexts hstored =>
    simp only [hfields, taggedFields_of_joins htexts, Except.bind, ofFields_of_unstored hstored]
    rfl
  | missingTable hfields htexts hkeys hone hstored htable =>
    simp only [hfields, taggedFields_of_joins htexts, Except.bind,
      ofFields_of_no_table hkeys hone hstored htable]
    rfl
  | generic hfields htexts hmaps hgeneric =>
    simp only [hfields, taggedFields_of_joins htexts, Except.bind, ofFields_eq_some.mpr hmaps,
      hgeneric]
    rfl
  | mapped hfields htexts hmaps hgeneric =>
    simp only [hfields, taggedFields_of_joins htexts, Except.bind, ofFields_eq_some.mpr hmaps,
      hgeneric]
    rfl

/-- Fields either have their tags joined, or there is a first faulty attribute. -/
theorem joins_or_fault (fields : List FieldDecl) :
    (∃ texts, List.Forall₂ FieldText.Joins fields texts) ∨
    ∃ before f after earlier a later fault, fields = before ++ f :: after ∧
      f.attributes = earlier ++ a :: later ∧
      (∀ g ∈ before, ∀ b ∈ g.attributes, ¬ b.IsFaulty) ∧ (∀ b ∈ earlier, ¬ b.IsFaulty) ∧
      a.Reads (.error fault) := by
  rcases exists_first (fun f : FieldDecl => ∃ a ∈ f.attributes, a.IsFaulty) fields with
    hsound | ⟨before, f, after, rfl, hbefore, hf⟩
  · exact .inl (exists_forall₂_joins fun f hf a ha hfaulty => hsound f hf ⟨a, ha, hfaulty⟩)
  · rcases exists_first Attribute.IsFaulty f.attributes with
      hsound | ⟨earlier, a, later, hattributes, hearlier, fault, hfault⟩
    · obtain ⟨a, ha, hfaulty⟩ := hf
      exact absurd hfaulty (hsound a ha)
    · exact .inr ⟨before, f, after, earlier, a, later, fault, rfl, hattributes,
        fun g hg b hb hfaulty => hbefore g hg ⟨b, hb, hfaulty⟩, hearlier, hfault⟩

/-- Every struct has an outcome. -/
theorem exists_described (decl : StructDecl) : ∃ r, Described decl r := by
  cases hfields : decl.fields with
  | positional => exact ⟨_, .positional hfields⟩
  | named fields =>
    obtain ⟨texts, htexts⟩ | ⟨before, f, after, earlier, a, later, fault, rfl, hattributes, hbefore,
      hearlier, hfault⟩ := joins_or_fault fields
    swap
    · exact ⟨_, .invalidAttribute hfields hattributes hbefore hearlier hfault⟩
    by_cases hstored : ∃ t ∈ texts, ∃ entry, t.StoredAs entry
    swap
    · exact ⟨_, .unstored hfields htexts fun t ht entry h => hstored ⟨t, ht, entry, h⟩⟩
    have hkeys : Picks FieldText.StoredAsKey texts _ := picks_key_iff.mpr rfl
    by_cases hone : ((texts.map FieldText.tagged).filterMap (·.storedKey?)).length ≤ 1
    swap
    · match hk : (texts.map FieldText.tagged).filterMap (·.storedKey?) with
      | [] => simp [hk] at hone
      | [_] => simp [hk] at hone
      | first :: second :: rest => exact ⟨_, .duplicateKey hfields htexts (hk ▸ hkeys)⟩
    rcases @ofFields_of_one_key decl.ident _ _ hkeys hone hstored with
      ⟨-, m, hm⟩ | ⟨htable, -⟩
    · cases hgeneric : decl.isGeneric with
      | true => exact ⟨_, .generic hfields htexts (ofFields_eq_some.mp hm) hgeneric⟩
      | false => exact ⟨_, .mapped hfields htexts (ofFields_eq_some.mp hm) hgeneric⟩
    · exact ⟨_, .missingTable hfields htexts hkeys hone hstored htable⟩

/-- What is computed for a struct, warnings and errors included, is what is declared. -/
theorem mappingOfStruct_eq_iff : mappingOfStruct decl = r ↔ Described decl r := by
  constructor
  · rintro rfl
    obtain ⟨r, hr⟩ := exists_described decl
    rwa [mappingOfStruct_of_described hr]
  · exact mappingOfStruct_of_described

end

end TaggedRows
