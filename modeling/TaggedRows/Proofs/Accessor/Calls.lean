import TaggedRows.Accessor.Meaning

/-!
# Calls of accessors

What `RecordType.call?` comes to for each of the fourteen names. Only `set_id` and `modified_by`
change the record.
-/

namespace TaggedRows

theorem RowMapping.setIdAccessor_name (m : RowMapping) : m.setIdAccessor.name = "set_id" := by
  unfold setIdAccessor; split <;> rfl

namespace RecordType

open Accessor

variable (t : RecordType) (args : List FieldValue) (r : Record)

theorem call?_newObj : t.call? "new_obj" args r = some (.record t.fresh, r) := rfl

theorem call?_names : t.call? "names" args r = some (.texts t.mapping.memberNames, r) := rfl

theorem call?_tableName : t.call? "table_name" args r = some (.text t.mapping.table, r) := rfl

theorem call?_keyField : t.call? "key_field" args r = some (.text t.mapping.keyColumn, r) := rfl

theorem call?_keyName : t.call? "key_name" args r = some (.text t.mapping.keyName, r) := rfl

theorem call?_selectFields :
    t.call? "select_fields" args r = some (.text t.mapping.selectFields, r) := rfl

theorem call?_insertFields :
    t.call? "insert_fields" args r = some (.text t.mapping.insertFields, r) := rfl

theorem call?_updateFields :
    t.call? "update_fields" args r = some (.text t.mapping.updateFields, r) := rfl

theorem call?_key : t.call? "key" args r = some (t.mapping.keyAccessor.call t args r) := rfl

theorem call?_setId : t.call? "set_id" args r = some (t.mapping.setIdAccessor.call t args r) := by
  simp [call?, RowMapping.accessors, Accessor.constant, RowMapping.keyAccessor,
    RowMapping.setIdAccessor_name]

theorem call?_insertValues :
    t.call? "insert_values" args r =
      some (.values (t.mapping.columns.map fun e => r.get e.field), r) := by
  simp [call?, RowMapping.accessors, Accessor.constant, RowMapping.keyAccessor,
    RowMapping.setIdAccessor_name, Accessor.call, runBody]

theorem call?_updateValues :
    t.call? "update_values" args r =
      some (.values ((t.mapping.updated ++ t.mapping.key.toList).map fun e => r.get e.field),
        r) := by
  have hk : (t.mapping.key.map MappedField.field).toList =
      t.mapping.key.toList.map MappedField.field := by cases t.mapping.key <;> rfl
  simp [call?, RowMapping.accessors, Accessor.constant, RowMapping.keyAccessor,
    RowMapping.setIdAccessor_name, Accessor.call, runBody, RowMapping.updateMembers, hk,
    Function.comp_def]

theorem call?_memberPointers :
    t.call? "member_pointers" args r =
      some (.slots (t.mapping.selected.map MappedField.field), r) := by
  simp [call?, RowMapping.accessors, Accessor.constant, RowMapping.keyAccessor,
    RowMapping.setIdAccessor_name, Accessor.call, runBody]

theorem call?_modifiedBy :
    t.call? "modified_by" args r = some (t.mapping.modifiedByAccessor.call t args r) := by
  simp [call?, RowMapping.accessors, Accessor.constant, RowMapping.keyAccessor,
    RowMapping.setIdAccessor_name, RowMapping.modifiedByAccessor]

end RecordType

end TaggedRows
