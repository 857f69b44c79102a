import TaggedRows.Proofs.Accessor.Calls
import TaggedRows.Proofs.RowMapping.Fields
import TaggedRows.Proofs.Text.Split
import TaggedRows.Query

/-!
# Lists of columns and slices of values

A statement takes its columns from a text with commas and its values from a slice, and nothing but
the order ties one to the other. A *slice* is kept here with the field that each of its entries
stands for.

* `aligned_joinColumns`: a list of non-empty columns lines up with the slice of its fields
  exactly when no column holds a comma.
* `column_lists_line_up_iff`: so it is for the four pairs that statements and rows use, for every
  mapping that tags make.
-/

namespace TaggedRows

/-- What stands for some fields, in their order. -/
abbrev Slice (α : Type) := List (MappedField × α)

namespace Slice

variable {α : Type} (s : Slice α)

def columns : List String := s.map fun (entry, _) => entry.column

def values : List α := s.map Prod.snd

/-- No column of the slice holds a comma. -/
def IsCommaFree : Prop := ∀ c ∈ s.columns, ',' ∉ c.toList

end Slice

namespace Query

/-- There are as many columns in a list as entries in a slice, and each is the column of the entry
in its place. -/
def LinesUp {α : Type} (fields : String) (s : Slice α) : Prop :=
  (columnsOf fields).length = s.length ∧
    ∀ (i : Nat) (entry : MappedField × α), s[i]? = some entry →
      (columnsOf fields)[i]? = some entry.1.column

variable {α : Type} {fields : String} {s : Slice α}

theorem linesUp_iff : LinesUp fields s ↔ columnsOf fields = s.columns := by
  constructor
  · rintro ⟨hl, hi⟩
    refine List.ext_getElem? fun i => ?_
    cases hs : s[i]? with
    | some entry => rw [hi i entry hs, Slice.columns, List.getElem?_map, hs]; rfl
    | none =>
      have := List.getElem?_eq_none_iff.1 hs
      rw [Slice.columns, List.getElem?_map, hs, List.getElem?_eq_none (by omega), Option.map_none]
  · intro h
    refine ⟨by rw [h, Slice.columns, List.length_map], fun i entry hs => ?_⟩
    rw [h, Slice.columns, List.getElem?_map, hs]; rfl

/-- A joined list of columns is empty only if there are none. -/
theorem intercalate_eq_empty_iff {cs : List String} (hc : ∀ c ∈ cs, c ≠ "") :
    ",".intercalate cs = "" ↔ cs = [] := by
  cases cs with
  | nil => simp
  | cons c cs =>
    simp only [reduceCtorEq, iff_false]
    cases cs with
    | nil => simpa using hc c (by simp)
    | cons d ds => rw [String.intercalate_cons_cons]; simp [hc c (by simp)]

/-- The number of columns in a joined list exceeds the number of columns by the commas in them. -/
theorem length_columnsOf_intercalate {cs : List String} (hc : ∀ c ∈ cs, c ≠ "") :
    (columnsOf (",".intercalate cs)).length =
      cs.length + (cs.flatMap String.toList).count ',' := by
  cases cs with
  | nil => simp [columnsOf]
  | cons c cs =>
    rw [columnsOf, if_neg (by simp [intercalate_eq_empty_iff hc]), Text.piecesOf, List.length_map,
      Text.length_pieces, String.toList_intercalate, List.map_cons]
    refine (congrArg (· + 1) (Text.count_intercalate ',' _ _)).trans ?_
    simp [List.flatMap_def]
    omega

theorem columnsOf_intercalate {cs : List String} (hc : ∀ c ∈ cs, c ≠ "")
    (hf : ∀ c ∈ cs, ',' ∉ c.toList) : columnsOf (",".intercalate cs) = cs := by
  by_cases h : cs = []
  · subst h; simp [columnsOf]
  · rw [columnsOf, if_neg (mt (intercalate_eq_empty_iff hc).1 h)]
    exact Text.piecesOf_intercalate ',' cs h hf

/-- What ties a list of columns to the slice of its fields. -/
structure Aligned (fields : String) (s : Slice α) : Prop where
  linesUp_iff_isCommaFree : LinesUp fields s ↔ s.IsCommaFree
  eq_empty_iff : fields = "" ↔ s = []

/-- A joined list of columns lines up with the slice of its fields exactly when there is no comma in
the columns: every comma makes one column more. -/
theorem aligned_intercalate (hc : ∀ c ∈ s.columns, c ≠ "") :
    Aligned (",".intercalate s.columns) s where
  linesUp_iff_isCommaFree := by
    constructor
    · rintro ⟨hl, -⟩
      have hn : s.columns.length = s.length := List.length_map _
      rw [length_columnsOf_intercalate hc, hn] at hl
      have h0 := List.count_eq_zero.1 (Nat.add_eq_left.1 hl)
      exact fun c hs hm => h0 (List.mem_flatMap.2 ⟨c, hs, hm⟩)
    · intro h
      exact linesUp_iff.2 (columnsOf_intercalate hc h)
  eq_empty_iff := by rw [intercalate_eq_empty_iff hc]; exact List.map_eq_nil_iff

theorem aligned_joinColumns {entries : List MappedField}
    (hs : s.columns = entries.map MappedField.column) (hc : ∀ e ∈ entries, e.column ≠ "") :
    Aligned (RowMapping.joinColumns entries) s := by
  have hne : ∀ c ∈ s.columns, c ≠ "" := by rw [hs]; simpa using hc
  rw [RowMapping.joinColumns, ← hs]
  exact aligned_intercalate hne

/-! ## The statements for a slice -/

theorem write_of_nil (verb table : String) (h : Aligned fields s) (hs : s = []) :
    write verb table fields = verb ++ " into " ++ table ++ " default values" := by
  rw [h.eq_empty_iff.2 hs, write, if_pos (by simp [fieldCount, columnsOf])]

/-- The statement of a comma-free slice has one `?` for each entry, in the order of the columns. -/
theorem write_of_isCommaFree (verb table : String) (h : Aligned fields s) (hs : s ≠ [])
    (hf : s.IsCommaFree) :
    write verb table fields =
      verb ++ " into " ++ table ++ " (" ++ fields ++ ") values(" ++
        ",".intercalate (s.map fun _ => "?") ++ ")" := by
  have hl : fieldCount fields = s.length := (h.linesUp_iff_isCommaFree.2 hf).1
  rw [write, if_neg (by simpa [hl] using hs), hl, placeholders, List.map_const']

/-- Every column of a comma-free slice is set to a `?`, in the order of the entries. -/
theorem setParams_of_isCommaFree (h : Aligned fields s) (hf : s.IsCommaFree) :
    setParams fields = ",".intercalate (s.map fun (entry, _) => entry.column ++ "=?") := by
  rw [setParams, linesUp_iff.1 (h.linesUp_iff_isCommaFree.2 hf), Slice.columns, List.map_map]
  rfl

end Query

/-! ## The slices of a record -/

namespace RecordType

variable (t : RecordType) (r : Record)

/-- A field with its argument. -/
def bound (e : MappedField) : MappedField × Sql.Argument := (e, t.argument r e)

/-- What an insertion binds. -/
def insertSlice : Slice Sql.Argument := t.mapping.columns.map (t.bound r)

/-- What a replacement by key binds: the key, and then what an insertion binds. -/
def replaceSlice : Slice Sql.Argument :=
  t.mapping.key.toList.map (fun e => (e, .value (.integer (t.keyOf r)))) ++ t.insertSlice r

/-- What an update writes. -/
def updateSlice : Slice Sql.Argument := t.mapping.updated.map (t.bound r)

/-- Where a row is read to. -/
def slotSlice : Slice Ident := t.mapping.selected.map fun e => (e, e.field)

theorem columns_insertSlice : (t.insertSlice r).columns = t.mapping.columns.map (·.column) := by
  simp [insertSlice, Slice.columns, bound, Function.comp_def]

theorem columns_replaceSlice : (t.replaceSlice r).columns = t.mapping.selected.map (·.column) := by
  simp [replaceSlice, Slice.columns, RowMapping.selected, bound, insertSlice, Function.comp_def]

theorem columns_updateSlice : (t.updateSlice r).columns = t.mapping.updated.map (·.column) := by
  simp [updateSlice, Slice.columns, bound, Function.comp_def]

theorem columns_slotSlice : t.slotSlice.columns = t.mapping.selected.map (·.column) := by
  simp [slotSlice, Slice.columns, Function.comp_def]

end RecordType

/-! ## Mappings from tags -/

/-- A field with what a tag says. -/
def TaggedField.ofTag (field : Ident × String) : TaggedField := ⟨field.1, .ofTag field.2⟩

/-- Tags name no empty column. -/
theorem ColumnTag.column_ne_empty {tag c : String} (h : (ofTag tag).column = some c) : c ≠ "" := by
  have h : (Tag.lookup tag "sql").filter (· ≠ "") = some c := h
  simpa using (Option.filter_eq_some_iff.1 h).2

theorem RowMapping.Describes.column_ne_empty {m : RowMapping} {type : Ident}
    {fields : List (Ident × String)} (h : m.Describes type (fields.map .ofTag)) :
    ∀ e ∈ m.selected, e.column ≠ "" := by
  have hentry {f : TaggedField} {e : MappedField} (hf : f ∈ fields.map .ofTag)
      (he : f.stored? = some e) : e.column ≠ "" := by
    obtain ⟨field, -, rfl⟩ := List.mem_map.1 hf
    obtain ⟨c, hc, rfl⟩ := Option.map_eq_some_iff.1 he
    exact ColumnTag.column_ne_empty hc
  intro e he
  rw [RowMapping.selected, h.key, h.columns] at he
  rcases List.mem_append.1 he with he | he
  · obtain ⟨f, hf, he⟩ := List.mem_filterMap.1 he
    exact hentry hf (Option.ite_none_right_eq_some.1 he).2
  · obtain ⟨f, hf, he⟩ := List.mem_filterMap.1 he
    exact hentry hf (Option.ite_none_left_eq_some.1 he).2

/-- For every mapping that tags make, the lists of columns line up with the slices that go with them
exactly when no column holds a comma, and are empty exactly when the slices are. Without commas, an
insertion, a replacement and an update therefore have one `?` for every value, behind or in the
place of its own column; the key comes last in an update. -/
theorem column_lists_line_up_iff {type : Ident} {fields : List (Ident × String)} {t : RecordType}
    (h : RowMapping.ofFields type (fields.map .ofTag) = .ok (some t.mapping)) (r : Record) :
    let m := t.mapping
    (Query.Aligned m.insertFields (t.insertSlice r) ∧ (t.insertSlice r).values = t.insertValues r) ∧
    (Query.Aligned m.selectFields (t.replaceSlice r) ∧
      (t.hasKey →
        (t.replaceSlice r).values = .value (.integer (t.keyOf r)) :: t.insertValues r)) ∧
    (Query.Aligned m.selectFields t.slotSlice ∧
      t.call? "member_pointers" [] r = some (.slots t.slotSlice.values, r)) ∧
    (Query.Aligned m.updateFields (t.updateSlice r) ∧
      t.updateValues r = (t.updateSlice r).values ++ m.key.toList.map (t.argument r)) ∧
    (t.insertSlice r = [] → ∀ verb,
      Query.write verb m.table m.insertFields = verb ++ " into " ++ m.table ++ " default values") ∧
    ((t.insertSlice r).IsCommaFree → t.insertSlice r ≠ [] → ∀ verb,
      Query.write verb m.table m.insertFields =
        verb ++ " into " ++ m.table ++ " (" ++ ",".intercalate (t.insertSlice r).columns ++
          ") values(" ++ ",".intercalate ((t.insertSlice r).map fun _ => "?") ++ ")") ∧
    ((t.replaceSlice r).IsCommaFree → t.hasKey →
      Query.replace m.table m.selectFields =
        "replace into " ++ m.table ++ " (" ++ ",".intercalate (t.replaceSlice r).columns ++
          ") values(" ++ ",".intercalate ((t.replaceSlice r).map fun _ => "?") ++ ")") ∧
    ((t.updateSlice r).IsCommaFree →
      Query.update m.access =
        "update " ++ m.table ++ " set " ++
          ",".intercalate ((t.updateSlice r).map fun (e, _) => e.column ++ "=?") ++
          " where " ++ m.keyColumn ++ "=?") := by
  have hd := RowMapping.describes_of_ofFields h
  have hne := hd.column_ne_empty
  have hcol : ∀ e ∈ t.mapping.columns, e.column ≠ "" := fun e he =>
    hne e (List.mem_append_right _ he)
  have hinsert : Query.Aligned t.mapping.insertFields _ :=
    Query.aligned_joinColumns (t.columns_insertSlice r) hcol
  have hreplace : Query.Aligned t.mapping.selectFields _ :=
    Query.aligned_joinColumns (t.columns_replaceSlice r) hne
  have hslot : Query.Aligned t.mapping.selectFields _ :=
    Query.aligned_joinColumns t.columns_slotSlice hne
  have hupdate : Query.Aligned t.mapping.updateFields _ :=
    Query.aligned_joinColumns (t.columns_updateSlice r) fun e he =>
      hcol e (List.mem_filter.1 he).1
  refine ⟨⟨hinsert, ?_⟩, ⟨hreplace, fun hk => ?_⟩, ⟨hslot, ?_⟩, ⟨hupdate, ?_⟩,
    fun hs verb => Query.write_of_nil verb _ hinsert hs, ?_, ?_, ?_⟩
  · simp [RecordType.insertSlice, Slice.values, RecordType.insertValues, RecordType.bound]
  · obtain ⟨key, hkey⟩ := Option.isSome_iff_exists.1 hk
    simp [RecordType.replaceSlice, RecordType.insertSlice, Slice.values, RecordType.insertValues,
      RecordType.bound, hkey]
  · rw [t.call?_memberPointers]
    simp [RecordType.slotSlice, Slice.values]
  · simp [RecordType.updateSlice, Slice.values, RecordType.updateValues, RecordType.bound]
  · intro hf hs verb
    rw [Query.write_of_isCommaFree verb _ hinsert hs hf, t.columns_insertSlice]
    rfl
  · intro hf hk
    have hs : t.replaceSlice r ≠ [] := by
      obtain ⟨key, hkey⟩ := Option.isSome_iff_exists.1 hk
      simp [RecordType.replaceSlice, hkey]
    rw [Query.replace, Query.write_of_isCommaFree "replace" _ hreplace hs hf,
      t.columns_replaceSlice]
    rfl
  · intro hf
    rw [Query.update]
    exact congrArg (fun s => "update " ++ t.mapping.table ++ " set " ++ s ++ " where " ++
      t.mapping.keyColumn ++ "=?") (Query.setParams_of_isCommaFree hupdate hf)

/-- A type whose second column is one name with a comma in it. -/
def commaType : RecordType where
  fields := [(.plain "id", .key), (.plain "pair", .text)]
  mapping := ⟨.plain "Note", [], "notes", some ⟨.plain "id", "id"⟩, [⟨.plain "pair", "\"a,b\""⟩],
    none, none, ["\"a,b\""]⟩

/-- In quotes a comma spoils the order just the same. -/
theorem column_lists_line_up_iff_comma :
    RowMapping.ofFields (.plain "Note") ([(.plain "id", "sql:\"id\" key:\"1\" table:\"notes\""),
      (.plain "pair", "sql:\"\\\"a,b\\\"\" update:\"f\"")].map .ofTag) =
        .ok (some commaType.mapping) ∧
      ¬ Query.LinesUp commaType.mapping.selectFields commaType.slotSlice := by
  have h : RowMapping.ofFields (.plain "Note") ([(.plain "id",
      "sql:\"id\" key:\"1\" table:\"notes\""),
      (.plain "pair", "sql:\"\\\"a,b\\\"\" update:\"f\"")].map .ofTag) =
        .ok (some commaType.mapping) := by decide +kernel
  refine ⟨h, fun hl => ?_⟩
  have hf := (column_lists_line_up_iff h []).2.2.1.1.linesUp_iff_isCommaFree.1 hl
  exact hf "\"a,b\"" (by decide) (by decide)

end TaggedRows
