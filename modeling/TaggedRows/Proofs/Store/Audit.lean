import TaggedRows.Proofs.Sql.Updating
import TaggedRows.Proofs.Store.Failing

/-!
# Noting changes

Noting a change in an object writes the fields for its user and its time and no others, so the key
stays unless it is such a field itself. An object that is saved then writes to the row with its key
alone.

- **Fields** (`get_withAudit`, `keyOf_congr`, `keyOf_of_get`): what becomes of the object.
- **Rows** (`WritesOnly`, `writesOnly_save`): what a save may write.
- **Both** (`modifiedBy_keeps_others`): for every struct, as its block is written.
-/

namespace TaggedRows

open TaggedRows.Sql (Argument Row Table Value sameName)
open TaggedRows.Source (StructDecl FieldDecl)

/-! ## Fields -/

/-- A field has one role in the audit at most. -/
theorem auditField?_ne {tagged : List TaggedField} (hd : (tagged.map (·.ident)).Nodup) {f : Ident}
    (h : auditField? tagged .user = some f) : auditField? tagged .time ≠ some f := by
  have hrole : ∀ role, auditField? tagged role = some f →
      ∃ g ∈ tagged, g.tag.audit = role ∧ g.ident = f := by
    intro role hf
    obtain ⟨g, hg, he⟩ := List.mem_filterMap.mp (List.mem_of_getLast? hf)
    obtain ⟨haudit, hident⟩ := Option.ite_none_right_eq_some.mp he
    exact ⟨g, hg, haudit, Option.some.inj hident⟩
  intro htime
  obtain ⟨g, hg, huser, hident⟩ := hrole .user h
  obtain ⟨g', hg', hother, hident'⟩ := hrole .time htime
  have hsame := List.inj_on_of_nodup_map hd hg hg' (hident.trans hident'.symm)
  rw [hsame, hother] at huser
  cases huser

namespace RecordType

variable {t : RecordType} {r : Record} {user : Int} {time : Timestamp} {key : MappedField}

theorem withAudit_eq (t : RecordType) (r : Record) (user : Int) (time : Timestamp) :
    t.withAudit r user time = (r.setAll (.integer user) t.mapping.userAudit.toList).setAll
      (.time time) t.mapping.timeAudit.toList := by
  unfold withAudit
  cases t.mapping.userAudit <;> cases t.mapping.timeAudit <;> rfl

theorem call?_modifiedBy_eq (t : RecordType) (r : Record) (user : Int) (time : Timestamp) :
    t.call? "modified_by" [.integer user, .time time] r =
      some (.nothing, t.withAudit r user time) := by
  rw [call?_modifiedBy_set, withAudit_eq]

theorem call?_key_eq (t : RecordType) (r : Record) :
    t.call? "key" [] r = some (.id (t.keyOf r), r) := by
  rw [t.call?_key, keyOf, RowMapping.keyAccessor]
  cases t.mapping.key with
  | none => rfl
  | some key =>
    dsimp only [Accessor.call, Accessor.runBody]
    cases r.get key.field <;> rfl

/-- The fields of the audit have the user and the time, and all others the values that they had. -/
theorem get_withAudit (hu : ∀ f ∈ t.mapping.userAudit, f ∈ r.map (·.1))
    (ht : ∀ f ∈ t.mapping.timeAudit, f ∈ r.map (·.1)) (f : Ident) :
    (t.withAudit r user time).get f =
      if t.mapping.timeAudit = some f then .time time
      else if t.mapping.userAudit = some f then .integer user else r.get f := by
  rw [withAudit_eq, Record.get_setAll _ _ (by simpa using ht),
    Record.get_setAll _ _ (by simpa using hu)]
  simp

theorem keyOf_congr {r' : Record} (h : ∀ key, t.mapping.key = some key →
    r'.get key.field = r.get key.field) : t.keyOf r' = t.keyOf r := by
  rw [keyOf, keyOf]
  cases hkey : t.mapping.key with
  | none => rfl
  | some key => simp only [h key hkey]

theorem keyOf_of_get (hk : t.mapping.key = some key) {n : Int} (h : r.get key.field = .integer n) :
    t.keyOf r = n := by
  rw [keyOf, hk]
  simp only [h]

/-- The key is the last of the arguments of an update. -/
theorem updateValues_of_key (hk : t.mapping.key = some key) :
    t.updateValues r = t.mapping.updated.map (t.argument r) ++ [t.argument r key] := by
  rw [updateValues, hk]
  rfl

theorem length_updateValues (hk : t.mapping.key = some key) :
    (t.updateValues r).length = t.mapping.updated.length + 1 := by
  simp [updateValues_of_key hk]

/-- Where all arguments of an update are converted, the last of the values is the key. -/
theorem getElem?_of_mapM_bound (hk : t.mapping.key = some key)
    (hkind : t.kindOf key.field = .key) {n : Int} (h : r.get key.field = .integer n)
    {parameters : List Value} (hb : (t.updateValues r).mapM Argument.bound = .ok parameters) :
    parameters[t.mapping.updated.length]? = some (.integer (t.keyOf r)) := by
  obtain ⟨hall, rfl⟩ := Argument.mapM_bound_eq_ok_iff.mp hb
  have hargument : t.argument r key = .value (.integer (t.keyOf r)) := by
    rw [argument, hkind, h, keyOf_of_get hk h]
    rfl
  rw [updateValues_of_key hk, hargument] at hall ⊢
  obtain ⟨v, hv⟩ := hall (.value (.integer (t.keyOf r))) (by simp)
  have hconverted := Argument.converted_eq hv
  have hvalue : v = .integer (t.keyOf r) := by
    rw [Argument.bound] at hv
    split at hv
    · exact (Except.ok.inj hv).symm
    · cases hv
  rw [List.map_append, List.getElem?_append_right (by simp)]
  simp [hconverted, hvalue]

/-- The columns of the type are columns of the table, which has the name that the type gives. -/
structure HasColumnsIn (t : RecordType) (u : Table) (tableName : String)
    (place : MappedField → Nat) : Prop where
  table : Sql.Grammar.IsEntity t.mapping.table.toList tableName
  column : ∀ e ∈ t.mapping.selected, Query.IsColumn u e.column (place e)

end RecordType

namespace Store

open TaggedRows.Store.Action

variable {t : RecordType} {h h' : Handle} {r : Record} {u : Table} {tableName : String}
  {place : MappedField → Nat} {key : MappedField} {user : Int} {time : Timestamp}

/-! ## Rows -/

/-- Of all tables, only the one of the given name is written, and of its rows only some: all others
are still there, and no row has come or gone. -/
structure WritesOnly (tableName : String) (u : Table) (isWritten : Row → Bool) (h h' : Handle) :
    Prop where
  isPoisoned_eq : h'.isPoisoned = h.isPoisoned
  saved_eq : h'.connection.saved = h.connection.saved
  others : ∀ name, sameName tableName name = false →
    h'.connection.database.table? name = h.connection.database.table? name
  exists_rows : ∃ rows, h'.connection.database.table tableName = .ok (u.withRows rows) ∧
    rows.length = u.rows.length ∧ ∀ row ∈ u.rows, isWritten row = false → row ∈ rows

theorem WritesOnly.of_database_eq {isWritten : Row → Bool}
    (ht : h.connection.database.table tableName = .ok u) (hp : h'.isPoisoned = h.isPoisoned)
    (hs : h'.connection.saved = h.connection.saved)
    (hdb : h'.connection.database = h.connection.database) :
    WritesOnly tableName u isWritten h h' :=
  ⟨hp, hs, fun name _ => by rw [hdb], u.rows, by rw [hdb]; exact ht, rfl, fun row hr _ => hr⟩

section Saving

variable [Sql.Engine]

/-- An update of the rows with a key writes to no others. -/
theorem WritesOnly.of_update {parameters : List Value} {changes : List (Nat × Sql.Term)} {k n : Nat}
    {id : Int} {effect : Sql.Effect} (ht : h.connection.database.table tableName = .ok u)
    (ho : Sql.IsOrdered u.rows) (hid : parameters[n]? = some (.integer id))
    (he : Sql.Effect.ofPlan h.connection.database parameters
      (.update tableName changes (some (Sql.Plan.keyCondition u k n))) = some (.ok effect))
    (hp : h'.isPoisoned = h.isPoisoned) (hs : h'.connection.saved = h.connection.saved)
    (hdb : h'.connection.database = effect.database) :
    WritesOnly tableName u (u.hasKeyCell k id) h h' := by
  obtain ⟨rows, hset, hrows, hothers⟩ := Sql.Effect.exists_of_update ht ho he
  obtain ⟨hname, -⟩ := Sql.Database.name_of_table ht
  refine ⟨hp, hs, fun name hne => ?_, rows, ?_, hrows, fun row hr hnot => hothers row hr ?_⟩
  · rw [hdb, hset, Sql.Database.table?_setTable]
    have hother : sameName u.name name = false := (Sql.sameName_congr hname name).trans hne
    exact if_neg (by rw [Sql.Table.withRows, hother]; exact Bool.false_ne_true)
  · rw [hdb, hset]
    exact Sql.Database.table_setTable ht rfl
  · rw [Sql.Table.holds_keyCondition hid]
    exact hnot

/-- A save is its update, if the type has a key and there is anything to update. It does not touch
its object. -/
theorem save_state (t : RecordType) (h : Handle) (r : Record) : (save t (h, r)).state =
    (if t.mapping.access.keyField = "" ∨ t.mapping.access.updateFields = "" then h
      else (execute (Query.update t.mapping.access) (t.updateValues r) h).state, r) := by
  rw [save_eq]
  by_cases hkey : t.mapping.access.keyField = ""
  · rw [if_pos hkey, if_pos (.inl hkey)]
  · rw [if_neg hkey]
    by_cases hupdate : t.mapping.access.updateFields = ""
    · rw [if_pos hupdate, if_pos (.inr hupdate)]
    · rw [if_neg hupdate, if_neg (not_or.mpr ⟨hkey, hupdate⟩)]

/-- An update writes to the rows with the key of its object, whether or not it succeeds. -/
theorem writesOnly_update (hk : t.mapping.key = some key) (hkind : t.kindOf key.field = .key)
    (hc : t.HasColumnsIn u tableName place)
    (ht : h.connection.database.table tableName = .ok u) (ho : Sql.IsOrdered u.rows) {n : Int}
    (hn : r.get key.field = .integer n) (hnil : t.mapping.updated ≠ []) :
    WritesOnly tableName u (u.hasKeyCell (place key) (t.keyOf r)) h
      (execute (Query.update t.mapping.access) (t.updateValues r) h).state := by
  cases hp : h.isPoisoned with
  | true =>
    have hx : (execute (Query.update t.mapping.access) (t.updateValues r) h).state = h := by
      simp [execute, note, locked, bind, Action.bind, hp]
    rw [hx]
    exact .of_database_eq ht rfl rfl rfl
  | false =>
    have hselected : t.mapping.selected = key :: t.mapping.columns := by
      rw [RowMapping.selected, hk]
      rfl
    have hkey : Query.IsColumn u t.mapping.access.keyField (place key) := by
      rw [RowMapping.access, RowMapping.keyColumn, hk]
      exact hc.column key (hselected ▸ List.mem_cons_self ..)
    have hcolumn : ∀ e ∈ t.mapping.updated, Query.IsColumn u e.column (place e) := fun e he =>
      hc.column e (hselected ▸ List.mem_cons_of_mem _ (List.mem_filter.mp he).1)
    obtain ⟨fault, hq⟩ | ⟨changes, hq⟩ :=
      Query.prepared_update_cases ht hc.table hkey hcolumn hnil rfl
    · rw [execute_of_refusal hp hq]
      exact .of_database_eq ht rfl rfl rfl
    rw [← RecordType.length_updateValues hk] at hq
    cases hb : (t.updateValues r).mapM Argument.bound with
    | error fault =>
      rw [execute_of_conversion hp hq hb]
      exact .of_database_eq ht rfl rfl rfl
    | ok parameters =>
      have hlength : (t.updateValues r).length = parameters.length := by
        rw [(Argument.mapM_bound_eq_ok_iff.mp hb).2, List.length_map]
      rw [hlength] at hq
      rcases he : Sql.Effect.ofPlan h.connection.database parameters
          (.update tableName changes
            (some (Sql.Plan.keyCondition u (place key) t.mapping.updated.length))) with
        _ | fault | effect
      · cases he
      · rw [execute_of_fault hp hq hb he]
        exact .of_database_eq ht rfl rfl rfl
      · rw [execute_of_effect hp hq hb he]
        exact .of_update ht ho (RecordType.getElem?_of_mapM_bound hk hkind hn hb) he rfl rfl rfl

/-- A save writes to the rows with the key of its object. -/
theorem writesOnly_save (hk : t.mapping.key = some key) (hkind : t.kindOf key.field = .key)
    (hc : t.HasColumnsIn u tableName place)
    (ht : h.connection.database.table tableName = .ok u) (ho : Sql.IsOrdered u.rows) {n : Int}
    (hn : r.get key.field = .integer n) :
    WritesOnly tableName u (u.hasKeyCell (place key) (t.keyOf r)) h (save t (h, r)).state.1 := by
  rw [save_state]
  dsimp only
  split
  · exact .of_database_eq ht rfl rfl rfl
  · next hsent =>
    refine writesOnly_update hk hkind hc ht ho hn fun hnil => hsent (.inr ?_)
    rw [RowMapping.access, RowMapping.updateFields, hnil]
    rfl

theorem saveAs_state (t : RecordType) (user : Int) (time : Timestamp) (h : Handle) (r : Record) :
    (saveAs t user time (h, r)).state = (save t (h, t.withAudit r user time)).state := by
  have hbind : saveAs t user time (h, r) =
      (setRecord (t.withAudit r user time) >>= fun _ => save t) (h, r) := theRecord_bind _ _
  rw [hbind]
  rcases hx : save t (h, t.withAudit r user time) with ⟨log, s, e | _⟩ <;>
    simp [setRecord, bind, Action.bind, hx]

/-! ## Both -/

/-- The block of every struct whose fields have different names notes a change in the fields for it
and in no others, so the key stays if it has no role in the audit, and is the user if it has that
role. Saving the object then writes to the rows with the key that it has come to have. -/
theorem modifiedBy_keeps_others {decl : StructDecl} {fields : List FieldDecl} {m : RowMapping}
    (hf : decl.fields = .named fields) (hm : (mappingOfStruct decl).result = .ok (some m))
    (hd : (fields.map (·.ident)).Nodup) {text : String} {runtime : RuntimePath}
    (hr : RuntimePath.parse? text = some runtime) {path : List Ident}
    (ht : t.mapping = m.inModules path) :
    ∃ tagged accessors, taggedFields decl.ident fields = .ok tagged ∧
      Accessor.Reader.block? runtime ((m.inModules path).tokens runtime) =
        some (path ++ [decl.ident], accessors) ∧
      ∀ r user time, r.map (·.1) = fields.map (·.ident) →
      ∃ r', callOf accessors t "modified_by" [.integer user, .time time] r = some (.nothing, r') ∧
        (∀ f, r'.get f = if auditField? tagged .time = some f then .time time
          else if auditField? tagged .user = some f then .integer user else r.get f) ∧
        callOf accessors t "key" [] r = some (.id (t.keyOf r), r) ∧
        callOf accessors t "key" [] r' = some (.id (t.keyOf r'), r') ∧
        ((∀ key, m.key = some key → auditField? tagged .user ≠ some key.field ∧
          auditField? tagged .time ≠ some key.field) → t.keyOf r' = t.keyOf r) ∧
        (∀ key, m.key = some key → auditField? tagged .user = some key.field →
          t.keyOf r' = user) ∧
        ∀ h, (saveAs t user time (h, r)).state.2 = r' ∧
          ∀ key n u tableName place, m.key = some key → t.kindOf key.field = .key →
            r.get key.field = .integer n → auditField? tagged .time ≠ some key.field →
            t.HasColumnsIn u tableName place →
            h.connection.database.table tableName = .ok u → Sql.IsOrdered u.rows →
            WritesOnly tableName u (u.hasKeyCell (place key) (t.keyOf r')) h
              (saveAs t user time (h, r)).state.1 := by
  obtain ⟨tagged, htags, ho⟩ := ofFields_of_mappingOfStruct hf hm
  obtain ⟨tags, rfl, hi⟩ := exists_tags_of_taggedFields htags
  have hdesc := RowMapping.describes_of_ofFields ho
  have hidents : (tags.map TaggedField.ofTag).map (·.ident) = fields.map (·.ident) := by
    rw [← hi, List.map_map]
    rfl
  refine ⟨_, m.accessors, htags, ?_, fun r user time hfields => ?_⟩
  · rw [Accessor.Reader.block?_tokens (RuntimePath.hasArguments_of_parse? hr), ← hdesc.ident]
    rfl
  have huser : t.mapping.userAudit = auditField? (tags.map .ofTag) .user := by
    rw [ht]
    exact hdesc.userAudit
  have htime : t.mapping.timeAudit = auditField? (tags.map .ofTag) .time := by
    rw [ht]
    exact hdesc.timeAudit
  have hkey : t.mapping.key = m.key := by
    rw [ht]
    rfl
  have hget : ∀ f, (t.withAudit r user time).get f =
      if t.mapping.timeAudit = some f then .time time
      else if t.mapping.userAudit = some f then .integer user else r.get f :=
    RecordType.get_withAudit
      (fun f hf => by rw [hfields, ← hidents]; exact mem_of_auditField? (huser ▸ hf))
      (fun f hf => by rw [hfields, ← hidents]; exact mem_of_auditField? (htime ▸ hf))
  rw [huser, htime] at hget
  have hcall : ∀ name arguments r, callOf m.accessors t name arguments r =
      t.call? name arguments r := by
    intro name arguments r
    rw [callOf, RecordType.call?, ht]
    rfl
  refine ⟨t.withAudit r user time, ?_, hget, ?_, ?_, fun hnone => ?_, fun key hk hu => ?_,
    fun h => ⟨?_, fun key n u tableName place hk hkind hn hnot hc hu hord => ?_⟩⟩
  · rw [hcall, t.call?_modifiedBy_eq]
  · rw [hcall, t.call?_key_eq]
  · rw [hcall, t.call?_key_eq]
  · refine t.keyOf_congr fun key hk => ?_
    rw [hkey] at hk
    rw [hget, if_neg (hnone key hk).2, if_neg (hnone key hk).1]
  · refine t.keyOf_of_get (hkey.trans hk) ?_
    rw [hget, if_neg (auditField?_ne (by rw [hidents]; exact hd) hu), if_pos hu]
  · rw [saveAs_state, save_state]
  · rw [saveAs_state]
    obtain ⟨n', hn'⟩ : ∃ n', (t.withAudit r user time).get key.field = .integer n' := by
      rw [hget, if_neg hnot]
      split
      · exact ⟨user, rfl⟩
      · exact ⟨n, hn⟩
    exact writesOnly_save (hkey.trans hk) hkind hc hu hord hn'

end Saving

/-- Two notes of which the first one is saved. -/
def twoNotes : Table :=
  ⟨"notes", [⟨"id", .integer, false, false, .null⟩, ⟨"text", .text, true, false, .null⟩,
    ⟨"author", .integer, false, false, .null⟩], some 0,
    [⟨1, [.integer 1, .text "a", .null]⟩, ⟨2, [.integer 2, .text "b", .null]⟩]⟩

theorem modifiedBy_keeps_others_note : ∃ (fields : List FieldDecl) (m : RowMapping)
    (runtime : RuntimePath) (t : RecordType) (h : Handle) (r r' : Record),
    noteDecl.fields = .named fields ∧ (mappingOfStruct noteDecl).result = .ok (some m) ∧
    (fields.map (·.ident)).Nodup ∧ RuntimePath.parse? RuntimePath.defaultText = some runtime ∧
    t.mapping = m.inModules [] ∧ r.map (·.1) = fields.map (·.ident) ∧
    m.key = some ⟨.plain "id", "id"⟩ ∧ t.kindOf (.plain "id") = .key ∧
    r.get (.plain "id") = .integer 1 ∧
    t.HasColumnsIn twoNotes "notes" twoNotes.placeOf ∧
    h.connection.database.table "notes" = .ok twoNotes ∧ Sql.IsOrdered twoNotes.rows ∧
    r'.get (.plain "author") = .integer 7 ∧ t.keyOf r' = 1 ∧
    (saveAs t 7 .epoch (h, r)).state.2 = r' ∧
    WritesOnly "notes" twoNotes (twoNotes.hasKeyCell 0 1) h (saveAs t 7 .epoch (h, r)).state.1 := by
  let m : RowMapping := ⟨.plain "Note", [], "notes", some ⟨.plain "id", "id"⟩,
    [⟨.plain "text", "text"⟩, ⟨.plain "author", "author"⟩], some (.plain "author"), none,
    ["author"]⟩
  let t : RecordType :=
    ⟨[(.plain "text", .text), (.plain "id", .key), (.plain "author", .optional .key)], m⟩
  let h : Handle := .ofConnection (.toDatabase [twoNotes])
  let r : Record := [(.plain "text", .text "c"), (.plain "id", .integer 1),
    (.plain "author", .absent)]
  have hm : (mappingOfStruct noteDecl).result = .ok (some m) := by decide +kernel
  have hsuits : t.SuitsTable twoNotes ⟨.plain "id", "id"⟩ := by decide +kernel
  have hcolumns : t.HasColumnsIn twoNotes "notes" twoNotes.placeOf :=
    ⟨hsuits.storedIn.table, hsuits.storedIn.column⟩
  have htable : h.connection.database.table "notes" = .ok twoNotes := by decide +kernel
  have hordered : Sql.IsOrdered twoNotes.rows :=
    List.pairwise_cons.mpr ⟨by simp, List.pairwise_singleton ..⟩
  have hr := RuntimePath.parse?_defaultText
  obtain ⟨tagged, accessors, htags, -, hcalls⟩ := modifiedBy_keeps_others rfl hm
    (by decide) hr (show t.mapping = m.inModules [] from rfl)
  have hroles : (taggedFields noteDecl.ident [taggedDecl "text" "sql:\"text\"" [.kw "String"],
      taggedDecl "id" "sql:\"id\" key:\"true\" table:\"notes\"" [.kw "i64"],
      taggedDecl "author" "sql:\"author\" update:\"false\" audit:\"user\"" [.kw "i64"]]).map
      (fun tagged => (auditField? tagged .user, auditField? tagged .time)) =
      .ok (some (.plain "author"), none) := by decide +kernel
  rw [htags] at hroles
  obtain ⟨huser, htime⟩ := Prod.mk.inj (Except.ok.inj hroles)
  obtain ⟨r', -, hget, -, -, hkey, -, hsave⟩ := hcalls r 7 .epoch rfl
  obtain ⟨hrecord, hwrites⟩ := hsave h
  have hone : t.keyOf r' = 1 := hkey fun key hk => by
    cases hk
    rw [huser, htime]
    exact ⟨by decide, by simp⟩
  have hplace : twoNotes.placeOf ⟨.plain "id", "id"⟩ = 0 := by decide +kernel
  refine ⟨_, m, _, t, h, r, r', rfl, hm, by decide, hr, rfl, rfl, rfl, rfl, rfl, hcolumns, htable,
    hordered, ?_, hone, hrecord, ?_⟩
  · rw [hget, htime, huser]
    rfl
  · have hnotes := hwrites _ 1 _ _ _ rfl rfl rfl (by simp [htime]) hcolumns htable hordered
    rwa [hone, hplace] at hnotes

/-- A struct whose key takes the user of a change. -/
def signedDecl : StructDecl :=
  ⟨.plain "Note", false, .named [
    taggedDecl "id" "sql:\"id\" key:\"true\" table:\"notes\" audit:\"user\"" [.kw "i64"],
    taggedDecl "text" "sql:\"text\"" [.kw "String"]]⟩

/-- A struct with a column that is more than a name. -/
def sprawlingDecl : StructDecl :=
  ⟨.plain "Note", false, .named [
    taggedDecl "id" "sql:\"id\" key:\"true\" table:\"notes\"" [.kw "i64"],
    taggedDecl "text" "sql:\"text=? where ? --\"" [.kw "String"]]⟩

/-- The key of a struct changes if it takes the user of a change, and the object is then saved to
the row of the user. And a column that is more than a name writes to every row. -/
theorem modifiedBy_changes_key :
    let kinds : List (Ident × FieldKind) := [(.plain "id", .key), (.plain "text", .text)]
    let r : Record := [(.plain "id", .integer 1), (.plain "text", .text "c")]
    let h : Handle := .ofConnection (.toDatabase [twoNotes])
    let rowsOf (run : Run State Unit) := run.state.1.connection.database.map Table.rows
    let key : MappedField := ⟨.plain "id", "id"⟩
    let signed : RowMapping :=
      ⟨.plain "Note", [], "notes", some key, [⟨.plain "text", "text"⟩], some (.plain "id"), none,
        []⟩
    let sprawling : RowMapping :=
      ⟨.plain "Note", [], "notes", some key, [⟨.plain "text", "text=? where ? --"⟩], none, none,
        []⟩
    ((mappingOfStruct signedDecl).result = .ok (some signed) ∧
      Accessor.Reader.block? RuntimePath.default (signed.tokens RuntimePath.default) =
        some ([.plain "Note"], signed.accessors) ∧
      RecordType.call? ⟨kinds, signed⟩ "key" [] r = some (.id 1, r) ∧
      (∃ r', RecordType.call? ⟨kinds, signed⟩ "modified_by" [.integer 2, .time .epoch] r =
        some (.nothing, r') ∧ RecordType.call? ⟨kinds, signed⟩ "key" [] r' = some (.id 2, r')) ∧
      rowsOf (saveAs ⟨kinds, signed⟩ 2 .epoch (h, r)) =
        [[⟨1, [.integer 1, .text "a", .null]⟩, ⟨2, [.integer 2, .text "c", .null]⟩]]) ∧
    (mappingOfStruct sprawlingDecl).result = .ok (some sprawling) ∧
      rowsOf (saveAs ⟨kinds, sprawling⟩ 2 .epoch (h, r)) =
        [[⟨1, [.integer 1, .text "c", .null]⟩, ⟨2, [.integer 2, .text "c", .null]⟩]] := by
  refine ⟨⟨?_, Accessor.Reader.block?_tokens ?_ _, ?_, ⟨_, rfl, ?_⟩, ?_⟩, ?_, ?_⟩
  case refine_2 => exact RuntimePath.hasArguments_of_parse? RuntimePath.parse?_defaultText
  all_goals decide +kernel

end Store

end TaggedRows
