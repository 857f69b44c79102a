import TaggedRows.SourceSet
import TaggedRows.Proofs.Attempts
import TaggedRows.Proofs.Accessor.Calls
import TaggedRows.Proofs.Accessor.Reading
import TaggedRows.Proofs.Query.Alignment
import TaggedRows.Proofs.Record.Fields
import TaggedRows.Proofs.SourceSet.Scan

/-!
# What accessors promise

- **The contract** (`MeetsContract`): what each of the fourteen accessors answers, in terms of the
  tags of the fields. The lists of columns, the names, the values and the slots keep one order: the
  key first where it takes part in front, then the other columns as they are declared.
- **Generated blocks** (`block_meetsContract`): the block that is written for a struct is read as
  accessors that meet the contract on every object.
-/

namespace TaggedRows

open Accessor

/-! ## The contract -/

/-- Calls one of the accessors by its name. -/
def callOf (accessors : List Accessor) (t : RecordType) (name : String)
    (arguments : List FieldValue) (r : Record) : Option (Answer × Record) :=
  (accessors.find? (·.name = name)).map fun a => a.call t arguments r

section

variable (tagged : List TaggedField)

/-- The fields that an update writes: those in a column that no tag takes out of updates. -/
def updatableFields : List MappedField :=
  (plainFields tagged).filter fun e => e.column ∉ tagged.filterMap (·.fixedColumn?)

/-- The last field with a role in the audit. -/
def auditField? (role : AuditRole) : Option Ident :=
  (tagged.filterMap (·.withRole? role)).getLast?

end

/-- What the accessors of a type with these fields answer on every object. -/
structure MeetsContract (tagged : List TaggedField) (fresh : Record)
    (call : String → List FieldValue → Record → Option (Answer × Record)) : Prop where
  newObj : ∀ r, call "new_obj" [] r = some (.record fresh, r)
  selectFields : ∀ r, call "select_fields" [] r =
    some (.text (",".intercalate ((keyFields tagged ++ plainFields tagged).map (·.column))), r)
  names : ∀ r, call "names" [] r =
    some (.texts ((keyFields tagged ++ plainFields tagged).map (·.field.name)), r)
  memberPointers : ∀ r, call "member_pointers" [] r =
    some (.slots ((keyFields tagged ++ plainFields tagged).map (·.field)), r)
  /-- No field has two slots. -/
  slotsDiffer : ((keyFields tagged ++ plainFields tagged).map (·.field)).Nodup
  insertFields : ∀ r, call "insert_fields" [] r =
    some (.text (",".intercalate ((plainFields tagged).map (·.column))), r)
  insertValues : ∀ r, call "insert_values" [] r =
    some (.values ((plainFields tagged).map fun e => r.get e.field), r)
  updateFields : ∀ r, call "update_fields" [] r =
    some (.text (",".intercalate ((updatableFields tagged).map (·.column))), r)
  updateValues : ∀ r, call "update_values" [] r =
    some (.values ((updatableFields tagged ++ keyFields tagged).map fun e => r.get e.field), r)
  tableName : ∃ table, (tagged.filterMap (·.storedTable?)).getLast? = some table ∧
    ∀ r, call "table_name" [] r = some (.text table, r)
  /-- There is at most one key, and its texts are empty only if there is none. -/
  keyTexts : (keyFields tagged = [] ∧
      ∀ r, call "key_field" [] r = some (.text "", r) ∧ call "key_name" [] r = some (.text "", r)) ∨
    ∃ key, keyFields tagged = [key] ∧ key.column ≠ "" ∧ key.field.name ≠ "" ∧
      ∀ r, call "key_field" [] r = some (.text key.column, r) ∧
        call "key_name" [] r = some (.text key.field.name, r)
  /-- The key of an object is the value of the key field. -/
  keyOf : ∀ key ∈ keyFields tagged, ∀ r n, r.get key.field = .integer n →
    call "key" [] r = some (.id n, r)
  /-- A new key is the key from then on, and no other field changes. -/
  setId : ∀ key ∈ keyFields tagged, ∀ r n, r.map (·.1) = tagged.map (·.ident) →
    ∃ r', call "set_id" [.integer n] r = some (.nothing, r') ∧
      call "key" [] r' = some (.id n, r') ∧ r'.map (·.1) = tagged.map (·.ident) ∧
      ∀ f, f ≠ key.field → r'.get f = r.get f
  /-- Without a key it is zero, and setting it does nothing. -/
  keyless : keyFields tagged = [] → ∀ r n,
    call "key" [] r = some (.id 0, r) ∧ call "set_id" [.integer n] r = some (.nothing, r)
  /-- A change is noted in the fields for it, and in no others. -/
  modifiedBy : ∀ r user time, r.map (·.1) = tagged.map (·.ident) →
    ∃ r', call "modified_by" [.integer user, .time time] r = some (.nothing, r') ∧
      r'.map (·.1) = tagged.map (·.ident) ∧
      ∀ f, r'.get f = if auditField? tagged .time = some f then .time time
        else if auditField? tagged .user = some f then .integer user else r.get f

/-! ## Fields with columns and roles -/

theorem mem_of_auditField? {tagged : List TaggedField} {role : AuditRole} {g : Ident}
    (h : auditField? tagged role = some g) : g ∈ tagged.map (·.ident) := by
  obtain ⟨f, hf, he⟩ := List.mem_filterMap.mp (List.mem_of_getLast? h)
  have hg : f.ident = g := Option.some.inj (Option.ite_none_right_eq_some.mp he).2
  exact hg ▸ List.mem_map_of_mem hf

/-! ## The contract of a mapping -/

section

variable {t : RecordType} {type : Ident} {tagged : List TaggedField}

theorem updated_eq (h : t.mapping.Describes type tagged) :
    t.mapping.updated = updatableFields tagged := by
  unfold RowMapping.updated updatableFields plainFields
  rw [h.columns]
  refine List.filter_congr fun e _ => ?_
  rw [Bool.eq_iff_iff]
  simp [h.fixedColumns]

/-- Setting the key and reading it. -/
theorem call?_setId_key {key : MappedField} (hk : t.mapping.key = some key) (r : Record) (n : Int)
    (hr : key.field ∈ r.map (·.1)) :
    t.call? "set_id" [.integer n] r = some (.nothing, r.set key.field (.integer n)) ∧
      t.call? "key" [] (r.set key.field (.integer n)) =
        some (.id n, r.set key.field (.integer n)) := by
  constructor
  · rw [t.call?_setId]
    simp [RowMapping.setIdAccessor, hk, Accessor.call, runBody, assign]
  · rw [t.call?_key]
    simp [RowMapping.keyAccessor, hk, Accessor.call, runBody, Record.get_set_self _ _ hr]

/-- The user goes into one field, and then the time into another. -/
theorem call?_modifiedBy_set (r : Record) (user : Int) (time : Timestamp) :
    t.call? "modified_by" [.integer user, .time time] r =
      some (.nothing, (r.setAll (.integer user) t.mapping.userAudit.toList).setAll
        (.time time) t.mapping.timeAudit.toList) := by
  rw [t.call?_modifiedBy]
  cases hu : t.mapping.userAudit <;> cases ht : t.mapping.timeAudit <;>
    simp [RowMapping.modifiedByAccessor, hu, ht, Accessor.paramName, Accessor.call, runBody,
      assign, List.lookup_cons, Record.setAll]

theorem meetsContract_of_describes (h : t.mapping.Describes type tagged)
    (hcol : ∀ e ∈ t.mapping.selected, e.column ≠ "") (hname : ∀ f ∈ tagged, f.ident.name ≠ "")
    (hd : (tagged.map (·.ident)).Nodup) : MeetsContract tagged t.fresh t.call? := by
  have hsel := h.selected_eq
  have hupd := updated_eq h
  have hcols : t.mapping.columns = plainFields tagged := h.columns
  have hkey : t.mapping.key.toList = keyFields tagged := h.key
  have hkeySome : ∀ key ∈ keyFields tagged, t.mapping.key = some key := by
    intro key hm
    rw [← hkey] at hm
    exact Option.mem_toList.mp hm
  exact {
    newObj := t.call?_newObj []
    selectFields := fun r => by
      rw [t.call?_selectFields, RowMapping.selectFields, RowMapping.joinColumns, hsel]
    names := fun r => by
      rw [t.call?_names, RowMapping.memberNames, hsel]
    memberPointers := fun r => by
      rw [t.call?_memberPointers, hsel]
    slotsDiffer := nodup_fields hd
    insertFields := fun r => by
      rw [t.call?_insertFields, RowMapping.insertFields, RowMapping.joinColumns, hcols]
    insertValues := fun r => by
      rw [t.call?_insertValues, hcols]
    updateFields := fun r => by
      rw [t.call?_updateFields, RowMapping.updateFields, RowMapping.joinColumns, hupd]
    updateValues := fun r => by
      rw [t.call?_updateValues, hupd, hkey]
    tableName := ⟨t.mapping.table, h.table, t.call?_tableName []⟩
    keyTexts := by
      cases hk : t.mapping.key with
      | none =>
        refine .inl ⟨by rw [← hkey, hk]; rfl, fun r => ?_⟩
        rw [t.call?_keyField, t.call?_keyName]
        simp [RowMapping.keyColumn, RowMapping.keyName, hk]
      | some key =>
        have hm : keyFields tagged = [key] := by rw [← hkey, hk]; rfl
        refine .inr ⟨key, hm, hcol key (by simp [RowMapping.selected, hk]), ?_, fun r => ?_⟩
        · obtain ⟨f, hf, he⟩ := List.mem_map.mp
            (field_mem_of_mem_stored (List.mem_append_left (plainFields tagged) (hm ▸
              List.mem_singleton.mpr rfl)))
          exact he ▸ hname f hf
        · rw [t.call?_keyField, t.call?_keyName]
          simp [RowMapping.keyColumn, RowMapping.keyName, hk]
    keyOf := fun key hm r n hr => by
      rw [t.call?_key]
      simp [RowMapping.keyAccessor, hkeySome key hm, Accessor.call, runBody, hr]
    setId := fun key hm r n hr => by
      have hin : key.field ∈ r.map (·.1) :=
        hr ▸ field_mem_of_mem_stored (List.mem_append_left _ hm)
      obtain ⟨hset, hget⟩ := call?_setId_key (hkeySome key hm) r n hin
      exact ⟨_, hset, hget, by simpa using hr, fun f hf => Record.get_set_of_ne r _ hf⟩
    keyless := fun hm r n => by
      have hk : t.mapping.key = none := by
        rw [← hkey] at hm
        simpa using hm
      rw [t.call?_key, t.call?_setId]
      simp [RowMapping.keyAccessor, RowMapping.setIdAccessor, hk, Accessor.call, runBody, assign]
    modifiedBy := fun r user time hr => by
      have hu : t.mapping.userAudit = auditField? tagged .user := h.userAudit
      have ht : t.mapping.timeAudit = auditField? tagged .time := h.timeAudit
      have hin : ∀ role, ∀ g ∈ (auditField? tagged role).toList, g ∈ r.map (·.1) := by
        intro role g hg
        rw [hr]
        exact mem_of_auditField? (Option.mem_toList.mp hg)
      refine ⟨_, call?_modifiedBy_set r user time, ?_, fun f => ?_⟩
      · rw [Record.map_fst_setAll, Record.map_fst_setAll, hr]
      · rw [hu, ht, Record.get_setAll _ _ (by simpa using hin .time),
          Record.get_setAll _ _ (hin .user)]
        simp [eq_comm] }

end

/-! ## Generated blocks -/

open Source

/-- Tags are read field by field. -/
theorem exists_tags_of_taggedFields {type : Ident} {fields : List FieldDecl}
    {tagged : List TaggedField} (h : taggedFields type fields = .ok tagged) :
    ∃ tags : List (Ident × String), tagged = tags.map .ofTag ∧
      tags.map (·.1) = fields.map (·.ident) := by
  unfold taggedFields at h
  induction fields generalizing tagged with
  | nil =>
    cases h
    exact ⟨[], rfl, rfl⟩
  | cons f fields ih =>
    obtain ⟨first, rest, hfirst, hrest, rfl⟩ := mapM_cons_eq_ok.mp h
    obtain ⟨tag, -, rfl⟩ := map_eq_ok.mp hfirst
    obtain ⟨tags, rfl, hi⟩ := ih hrest
    exact ⟨(f.ident, tag) :: tags, rfl, by simp [hi]⟩

/-- A struct with a mapping has named fields whose tags make it. -/
theorem ofFields_of_mappingOfStruct {decl : StructDecl} {fields : List FieldDecl} {m : RowMapping}
    (hf : decl.fields = .named fields) (hm : (mappingOfStruct decl).result = .ok (some m)) :
    ∃ tagged, taggedFields decl.ident fields = .ok tagged ∧
      RowMapping.ofFields decl.ident tagged = .ok (some m) := by
  unfold mappingOfStruct at hm
  simp only [hf] at hm
  cases ht : taggedFields decl.ident fields with
  | error e => simp [ht, Except.bind, Report.fail] at hm
  | ok tagged =>
    refine ⟨tagged, rfl, ?_⟩
    rw [ht] at hm
    simp only [Except.bind] at hm
    split at hm
    · cases hm
    · cases hm
    · next m' hm' =>
      split at hm
      · cases hm
      · cases hm
        exact hm'

/-- So a struct with a mapping has named fields. -/
theorem named_of_mappingOfStruct {decl : StructDecl} {m : RowMapping}
    (hm : (mappingOfStruct decl).result = .ok (some m)) :
    ∃ fields, decl.fields = .named fields := by
  cases hf : decl.fields with
  | named fields => exact ⟨fields, rfl⟩
  | positional =>
    rw [mappingOfStruct, hf] at hm
    cases hm

/-- The mapping of a struct has its name. -/
theorem ident_of_mappingOfStruct {decl : StructDecl} {m : RowMapping}
    (hm : (mappingOfStruct decl).result = .ok (some m)) : m.ident = decl.ident := by
  obtain ⟨fields, hf⟩ := named_of_mappingOfStruct hm
  obtain ⟨tagged, -, ho⟩ := ofFields_of_mappingOfStruct hf hm
  exact (RowMapping.describes_of_ofFields ho).ident

/-- The mapping of a struct describes what the tags of its fields say. No column is empty. -/
theorem describes_of_mappingOfStruct {decl : StructDecl} {m : RowMapping}
    (hm : (mappingOfStruct decl).result = .ok (some m)) : ∃ fields tagged,
      decl.fields = .named fields ∧ tagged.map (·.ident) = fields.map (·.ident) ∧
      m.Describes decl.ident tagged ∧ ∀ e ∈ m.selected, e.column ≠ "" := by
  obtain ⟨fields, hf⟩ := named_of_mappingOfStruct hm
  obtain ⟨tagged, ht, ho⟩ := ofFields_of_mappingOfStruct hf hm
  obtain ⟨tags, rfl, hi⟩ := exists_tags_of_taggedFields ht
  have hd := RowMapping.describes_of_ofFields ho
  refine ⟨fields, _, hf, ?_, hd, hd.column_ne_empty⟩
  rw [← hi, List.map_map]
  rfl

/-- The names of all accessors. -/
theorem accessors_map_name (m : RowMapping) : m.accessors.map (·.name) =
    ["new_obj", "names", "table_name", "key_field", "key_name", "select_fields", "insert_fields",
      "update_fields", "key", "set_id", "insert_values", "update_values", "member_pointers",
      "modified_by"] := by
  simp [RowMapping.accessors, Accessor.constant, RowMapping.keyAccessor,
    RowMapping.setIdAccessor_name, RowMapping.modifiedByAccessor]

/-- The block that is written for a struct, in any modules and for any path of the runtime, is read
as the fourteen accessors of the type, and on every object these answer what the contract says. -/
theorem block_meetsContract {decl : StructDecl} {fields : List FieldDecl} {m : RowMapping}
    (hf : decl.fields = .named fields) (hm : (mappingOfStruct decl).result = .ok (some m))
    (hd : (fields.map (·.ident)).Nodup) (hn : ∀ f ∈ fields, f.ident.name ≠ "") {text : String}
    {runtime : RuntimePath} (hr : RuntimePath.parse? text = some runtime) (path : List Ident)
    (kinds : List (Ident × FieldKind)) :
    ∃ tagged accessors, taggedFields decl.ident fields = .ok tagged ∧
      tagged.map (·.ident) = fields.map (·.ident) ∧
      Reader.block? runtime ((m.inModules path).tokens runtime) =
        some (path ++ [decl.ident], accessors) ∧
      accessors.map (·.name) = ["new_obj", "names", "table_name", "key_field", "key_name",
        "select_fields", "insert_fields", "update_fields", "key", "set_id", "insert_values",
        "update_values", "member_pointers", "modified_by"] ∧
      MeetsContract tagged (RecordType.fresh ⟨kinds, m⟩) (callOf accessors ⟨kinds, m⟩) := by
  obtain ⟨tagged, ht, ho⟩ := ofFields_of_mappingOfStruct hf hm
  obtain ⟨tags, rfl, hi⟩ := exists_tags_of_taggedFields ht
  have hdesc := RowMapping.describes_of_ofFields ho
  have hidents : (tags.map TaggedField.ofTag).map (·.ident) = fields.map (·.ident) := by
    rw [← hi, List.map_map]
    rfl
  refine ⟨_, m.accessors, ht, hidents, ?_, accessors_map_name m, ?_⟩
  · rw [Reader.block?_tokens (RuntimePath.hasArguments_of_parse? hr), ← hdesc.ident]
    rfl
  · refine meetsContract_of_describes (t := ⟨kinds, m⟩) hdesc hdesc.column_ne_empty ?_ ?_
    · intro f hmem
      have hin : f.ident ∈ fields.map (·.ident) := hidents ▸ List.mem_map_of_mem hmem
      obtain ⟨f', hf', he⟩ := List.mem_map.mp hin
      exact he ▸ hn f' hf'
    · rw [hidents]
      exact hd

/-- A struct with a key, a column and a column that updates leave alone. -/
def noteDecl : StructDecl :=
  ⟨.plain "Note", false, .named [
    taggedDecl "text" "sql:\"text\"" [.kw "String"],
    taggedDecl "id" "sql:\"id\" key:\"true\" table:\"notes\"" [.kw "i64"],
    taggedDecl "author" "sql:\"author\" update:\"false\" audit:\"user\"" [.kw "i64"]]⟩

theorem block_meetsContract_note : ∃ fields m runtime,
    noteDecl.fields = .named fields ∧ (mappingOfStruct noteDecl).result = .ok (some m) ∧
    (fields.map (·.ident)).Nodup ∧ (∀ f ∈ fields, f.ident.name ≠ "") ∧
    RuntimePath.parse? RuntimePath.defaultText = some runtime ∧
    ∃ tagged accessors, taggedFields noteDecl.ident fields = .ok tagged ∧
      tagged.map (·.ident) = fields.map (·.ident) ∧
      Reader.block? runtime ((m.inModules []).tokens runtime) = some ([.plain "Note"], accessors) ∧
      accessors.map (·.name) = ["new_obj", "names", "table_name", "key_field", "key_name",
        "select_fields", "insert_fields", "update_fields", "key", "set_id", "insert_values",
        "update_values", "member_pointers", "modified_by"] ∧
      MeetsContract tagged (RecordType.fresh ⟨[], m⟩) (callOf accessors ⟨[], m⟩) := by
  have hm : (mappingOfStruct noteDecl).result = .ok (some
      ⟨.plain "Note", [], "notes", some ⟨.plain "id", "id"⟩,
        [⟨.plain "text", "text"⟩, ⟨.plain "author", "author"⟩], some (.plain "author"), none,
        ["author"]⟩) := by decide +kernel
  have hr := RuntimePath.parse?_defaultText
  exact ⟨_, _, _, rfl, hm, by decide, by decide, hr,
    block_meetsContract rfl hm (by decide) (by decide) hr [] []⟩

end TaggedRows
