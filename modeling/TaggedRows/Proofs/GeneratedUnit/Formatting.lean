import TaggedRows.Proofs.GeneratedUnit.Selection
import TaggedRows.Proofs.GeneratedUnit.Syntax
import TaggedRows.Proofs.Source.Names

/-!
# When a unit is laid out

The code of a unit is laid out where it is the text of a file, and else written as plain tokens.

- **Identifiers** (`RowMapping.Names`, `SourceFile.isDeclared_of_mappings`): a mapping names fields
  of its struct and the path to it, so all its identifiers come from the text of a file.
- **Warnings** (`Report.IsAboutTypes`): nothing before the last step warns about the code.
- **Units** (`GeneratedUnit.generate_isFormatted_iff`): for a plain path of the runtime, a unit is
  laid out exactly if its mappings fit the template.
-/

namespace TaggedRows

open Source

/-! ## Identifiers -/

/-- The fields that the mapping names are among the given ones. -/
structure RowMapping.Names (m : RowMapping) (idents : List Ident) : Prop where
  selected : ∀ entry ∈ m.selected, entry.field ∈ idents
  audit : ∀ id ∈ m.userAudit.toList ++ m.timeAudit.toList, id ∈ idents

theorem RowMapping.Describes.names {m : RowMapping} {type : Ident} {tagged : List TaggedField}
    (h : m.Describes type tagged) : m.Names (tagged.map (·.ident)) where
  selected entry he := field_mem_of_mem_stored (h.selected_eq ▸ he)
  audit id hid := by
    have hrole : ∀ {role : AuditRole} {audit : Option Ident},
        audit = (tagged.filterMap (·.withRole? role)).getLast? → id ∈ audit.toList →
          id ∈ tagged.map (·.ident) := fun heq hid =>
      mem_of_auditField? (heq ▸ Option.mem_toList.mp hid)
    rcases List.mem_append.mp hid with hid | hid
    · exact hrole h.userAudit hid
    · exact hrole h.timeAudit hid

namespace PlacedStruct

variable {s : PlacedStruct} {m : RowMapping}

/-- The mapping of a struct names its fields. -/
theorem names_of_mapping? (h : s.mapping? = some m) :
    m.Names (s.decl.fields.decls.map (·.ident)) := by
  obtain ⟨fields, tagged, hf, hi, hd, -⟩ := describes_of_mappingOfStruct (mapping?_eq_some h)
  rw [hf, Fields.decls, ← hi]
  exact hd.names

end PlacedStruct

/-- What a file says about the names in its modules holds of all identifiers of its mappings. -/
theorem SourceFile.forall_typePath {file : SourceFile} {s : PlacedStruct} {m : RowMapping}
    (hm : s.mapping? = some m) {p : Ident → Prop}
    (hfile : ∀ ids, file.modulePrefix = .ok ids → ∀ id ∈ ids, p id)
    (hmodules : ∀ id ∈ s.modules, p id) (hident : p s.decl.ident) :
    ∀ id ∈ (m.inModules (file.modulePrefix.toOption.getD [] ++ s.modules)).typePath, p id := by
  intro id hid
  rcases List.mem_append.mp hid with hid | hid
  · rcases List.mem_append.mp hid with hid | hid
    · cases hpath : file.modulePrefix with
      | error e =>
        rw [hpath] at hid
        cases hid
      | ok ids =>
        rw [hpath] at hid
        exact hfile ids hpath id hid
    · exact hmodules id hid
  · rw [List.mem_singleton.mp hid]
    exact (PlacedStruct.ident_of_mapping? hm).symm ▸ hident

/-- The identifiers of the mappings in a parsed file can be declared, and they can be written. -/
theorem SourceFile.isDeclared_of_mappings {file : SourceFile} (h : file.IsParsed)
    {structs : List PlacedStruct} (hsub : structs ⊆ placedStructs [] file.items) :
    ∀ m ∈ file.mappings structs, m.IsDeclared ∧ m.IsWritten := by
  intro m hm
  obtain ⟨s, hs, hmap⟩ := List.mem_filterMap.mp hm
  obtain ⟨m, hs', rfl⟩ := Option.map_eq_some_iff.mp hmap
  obtain ⟨ts, hwritten, hnames⟩ := h.hasNames
  obtain ⟨⟨hident, hfields⟩, hmodules⟩ := hnames s (hsub hs)
  have hfield : ∀ id ∈ s.decl.fields.decls.map (·.ident), id.IsFieldName ∧ id.IsWritten := by
    intro id hid
    obtain ⟨f, hf, rfl⟩ := List.mem_map.mp hid
    exact ⟨(hfields f hf).1, hwritten _ (hfields f hf).2⟩
  obtain ⟨hselected, haudit⟩ := PlacedStruct.names_of_mapping? hs'
  have hkey : ∀ entry ∈ m.key, entry ∈ m.selected := fun entry he =>
    List.mem_append_left _ (Option.mem_toList.mpr he)
  refine ⟨⟨?_, ?_, ?_⟩, ⟨?_, ?_, ?_⟩⟩
  · refine forall_typePath hs' (fun ids hids id hid => ?_) (fun id hid => ?_) ?_
    · exact .inl (.inl (name_of_modulePrefix hids id hid).1)
    · exact (hmodules id hid).1.imp_left .inl
    · exact .inl (.inl hident.1)
  · exact fun entry he => (hfield _ (hselected entry (hkey entry he))).1
  · exact fun id hid => (hfield id (haudit id hid)).1
  · refine forall_typePath hs' (fun ids hids id hid => ?_) (fun id hid => ?_) ?_
    · exact (name_of_modulePrefix hids id hid).2
    · exact hwritten id (hmodules id hid).2
    · exact hwritten _ hident.2
  · exact fun entry he => (hfield _ (hselected entry he)).2
  · exact fun id hid => (hfield id (haudit id hid)).2

namespace SourceSet

/-- The files of a set made from texts are parsed. -/
theorem isParsed_of_ofTexts {name : String} {sources : List (String × String)} {set : SourceSet}
    (h : ofTexts name sources = .ok set) : ∀ file ∈ set.files, file.IsParsed := by
  intro file hf
  obtain ⟨several, path, text, ht⟩ := exists_ofText_of_ofTexts h file hf
  exact SourceFile.isParsed_of_ofText ht

/-- The files of a set that is loaded are parsed. -/
theorem isParsed_of_load {tree : FileTree} {name dir : String} {paths : List String}
    {exclude : Option String} {several : Bool} {set : SourceSet}
    (h : load tree name dir paths exclude several = .ok set) :
    ∀ file ∈ set.files, file.IsParsed := by
  intro file hf
  obtain ⟨path, text, ht⟩ := exists_ofText_of_load h file hf
  exact SourceFile.isParsed_of_ofText ht

variable {set : SourceSet} {mappings : List RowMapping}

theorem isDeclared_of_scan (hset : ∀ file ∈ set.files, file.IsParsed) {wanted : Option String}
    (h : (set.scan wanted).result = .ok mappings) :
    ∀ m ∈ mappings, m.IsDeclared ∧ m.IsWritten := by
  rw [scan, result_scan_go, firstOr_eq_ok] at h
  obtain ⟨-, rfl⟩ := h
  intro m hm
  obtain ⟨file, hf, hm⟩ := List.mem_flatMap.mp hm
  exact SourceFile.isDeclared_of_mappings (hset file hf) (List.filter_subset_self _) m hm

end SourceSet

theorem GeneratedUnit.isDeclared_of_selected {set : SourceSet} {mappings : List RowMapping}
    (hset : ∀ file ∈ set.files, file.IsParsed) {types : List String}
    (h : (selected set types).result = .ok mappings) :
    ∀ m ∈ mappings, m.IsDeclared ∧ m.IsWritten := by
  rw [selected] at h
  split at h
  · exact SourceSet.isDeclared_of_scan hset h
  · rw [result_requested] at h
    obtain ⟨found, hfound, rfl⟩ := map_eq_ok.mp h
    intro m hm
    obtain ⟨ms, hms, hm⟩ := List.mem_flatten.mp hm
    obtain ⟨name, -, hname⟩ := exists_of_mem_mapM hfound hms
    exact SourceSet.isDeclared_of_scan hset hname m hm

/-! ## Warnings -/

/-- The computation warns about types, and about nothing else. -/
def Report.IsAboutTypes {α : Type} (r : Report α) : Prop := ∀ w ∈ r.warnings, w.type? ≠ none

namespace Report

variable {α β : Type} {r : Report α}

theorem isAboutTypes_pure (a : α) : (pure a : Report α).IsAboutTypes := List.forall_mem_nil _

theorem IsAboutTypes.bind (h : r.IsAboutTypes) {f : α → Report β}
    (hf : ∀ a, (f a).IsAboutTypes) : (r >>= f).IsAboutTypes := by
  change (Report.bind r f).IsAboutTypes
  rw [Report.bind]
  split
  · exact h
  · exact List.forall_mem_append.mpr ⟨h, hf _⟩

end Report

open Report

theorem isAboutTypes_mappingOfStruct (decl : StructDecl) :
    (mappingOfStruct decl).IsAboutTypes := by
  intro w hw
  rw [warnings_mappingOfStruct hw]
  exact Option.some_ne_none _

theorem isAboutTypes_mappingsOf (structs : List PlacedStruct) :
    (mappingsOf structs).IsAboutTypes := by
  induction structs with
  | nil => exact isAboutTypes_pure []
  | cons s rest ih =>
    rw [mappingsOf]
    refine (isAboutTypes_mappingOfStruct s.decl).bind fun mapping => ?_
    exact ih.bind fun mappings => isAboutTypes_pure _

theorem SourceFile.isAboutTypes_scan (file : SourceFile) (wanted : Option String) :
    (file.scan wanted).IsAboutTypes := by
  rw [scan]
  refine (isAboutTypes_mappingsOf _).bind fun mappings => ?_
  split
  · exact isAboutTypes_pure _
  · have hmodules : (Report.ofExcept file.modulePrefix).IsAboutTypes := List.forall_mem_nil _
    exact hmodules.bind fun path => isAboutTypes_pure _

theorem SourceSet.isAboutTypes_scan (set : SourceSet) (wanted : Option String) :
    (set.scan wanted).IsAboutTypes := by
  rw [scan]
  induction set.files with
  | nil => exact isAboutTypes_pure _
  | cons file files ih =>
    rw [scan.go]
    refine (file.isAboutTypes_scan wanted).bind fun found => ?_
    exact ih.bind fun rest => isAboutTypes_pure _

namespace GeneratedUnit

theorem isAboutTypes_requested (set : SourceSet) (names : List String) :
    (requested set names).IsAboutTypes := by
  induction names with
  | nil => exact isAboutTypes_pure _
  | cons name names ih =>
    rw [requested_cons]
    refine (set.isAboutTypes_scan _).bind fun found => IsAboutTypes.bind ?_ fun _ => ?_
    · intro w hw
      change w ∈ missingName name found at hw
      rw [missingName] at hw
      split at hw
      · rw [List.mem_singleton.mp hw]
        exact Option.some_ne_none _
      · cases hw
    · exact ih.bind fun others => isAboutTypes_pure _

theorem isAboutTypes_selected (set : SourceSet) (types : List String) :
    (selected set types).IsAboutTypes := by
  rw [selected]
  split
  · exact set.isAboutTypes_scan none
  · exact isAboutTypes_requested set _

/-! ## Units -/

variable {set : SourceSet} {mappings : List RowMapping} {runtimePath : String}

/-- The last step lays the code out if it is the text of a file, and else warns about it. -/
theorem ofMappings_isFormatted (runtime : RuntimePath) (invocation moduleName : String)
    (mappings : List RowMapping) :
    let report := ofMappings runtime invocation moduleName mappings
    ∃ unit, report.result = .ok unit ∧
      unit.isFormatted = isFile (Token.print (tokens runtime mappings)) ∧
      report.warnings = if unit.isFormatted then [] else [.invalidCode, .invalidCodeHint] := by
  intro report
  have hreport : report = ofMappings runtime invocation moduleName mappings := rfl
  rw [ofMappings] at hreport
  cases hfile : isFile (Token.print (tokens runtime mappings)) with
  | true =>
    rw [if_pos hfile] at hreport
    exact ⟨_, by rw [hreport]; rfl, rfl, by rw [hreport]; rfl⟩
  | false =>
    rw [if_neg (Bool.not_eq_true _ ▸ hfile)] at hreport
    exact ⟨_, by rw [hreport]; rfl, rfl, by rw [hreport]; rfl⟩

/-- The unit for mappings of parsed files is laid out exactly if they fit the template. -/
theorem generate_formats (hr : RuntimePath.IsPlainText runtimePath)
    (hset : ∀ file ∈ set.files, file.IsParsed) (invocation : String) {types : List String}
    (h : (selected set types).result = .ok mappings) :
    let report := generate set runtimePath invocation types
    ∃ unit, report.result = .ok unit ∧
      (unit.isFormatted = true ↔ ∀ m ∈ mappings, m.FitsTemplate) ∧
      report.warnings = (selected set types).warnings ++
        if unit.isFormatted then [] else [.invalidCode, .invalidCodeHint] := by
  intro report
  obtain ⟨runtime, hparse, hplain⟩ := hr.parses
  have hreport : report = selected set types >>= ofMappings runtime invocation set.name :=
    generate_eq hparse set invocation types
  have hnames := isDeclared_of_selected hset h
  obtain ⟨unit, hunit, hformatted, hwarnings⟩ :=
    ofMappings_isFormatted runtime invocation set.name mappings
  refine ⟨unit, ?_, ?_, ?_⟩
  · rw [hreport, Report.result_bind, h]
    exact hunit
  · rw [hformatted]
    exact isFile_print_iff hparse hplain (fun m hm => (hnames m hm).1) fun m hm => (hnames m hm).2
  · rw [hreport, Report.warnings_bind h, hwarnings]

/-- For parsed files and a plain path of the runtime, every list of types gives a unit where the
scan succeeds, and a unit is laid out, without a warning about its code, exactly if its mappings fit
the template. Else it is written as plain tokens, with both warnings. -/
theorem generate_isFormatted_iff (hr : RuntimePath.IsPlainText runtimePath)
    (hset : ∀ file ∈ set.files, file.IsParsed) (invocation : String) (types : List String) :
    let report := generate set runtimePath invocation types
    (∀ all, (set.scan none).result = .ok all →
      (selected set types).result = .ok (chosen (TypeList.ofNames types) all)) ∧
    ∀ mappings, (selected set types).result = .ok mappings →
      ∃ unit, report.result = .ok unit ∧
        (unit.isFormatted = true ↔ ∀ m ∈ mappings, m.FitsTemplate) ∧
        ∀ w, w = .invalidCode ∨ w = .invalidCodeHint →
          (w ∈ report.warnings ↔ ∃ m ∈ mappings, ¬ m.FitsTemplate) := by
  intro report
  refine ⟨fun all h => result_selected h types, fun mappings h => ?_⟩
  obtain ⟨unit, hunit, hformatted, hwarnings⟩ := generate_formats hr hset invocation h
  refine ⟨unit, hunit, hformatted, fun w hw => ?_⟩
  have hbefore : w ∉ (selected set types).warnings := by
    intro hmem
    refine isAboutTypes_selected set types w hmem ?_
    rcases hw with rfl | rfl <;> rfl
  have hfits : (∃ m ∈ mappings, ¬ m.FitsTemplate) ↔ unit.isFormatted = false := by
    rw [← Bool.not_eq_true, hformatted]
    simp only [not_forall, exists_prop]
  rw [hwarnings, List.mem_append, hfits]
  cases unit.isFormatted with
  | true => simp [hbefore]
  | false => simp [hbefore, hw]

/-- A struct with a key. -/
def entryDecl : StructDecl :=
  ⟨.plain "Entry", false, .named [
    taggedDecl "id" "sql:\"id\" key:\"true\" table:\"entries\"" [.kw "i64"]]⟩

/-- A file with the struct in an inline module. -/
def entryFile (module : String) : SourceFile :=
  ⟨"src/lib.rs", [.module (.plain module) [.struct entryDecl]], none⟩

/-- The text of the file. -/
def entryText (module : String) : String :=
  "mod " ++ module ++
    " \x7b struct Entry \x7b #[db(\"sql:\\\"id\\\" key:\\\"true\\\" table:\\\"entries\\\"\")]" ++
    " id: i64 \x7d \x7d"

/-- The tokens of the text. -/
def entryTokens (module : String) : List Token :=
  [.kw "mod", .word (.plain module), .opening .brace, .kw "struct", .kw "Entry", .opening .brace,
    .punct '#' false, .opening .bracket, .kw "db", .opening .paren,
    .str "sql:\"id\" key:\"true\" table:\"entries\"", .closing .paren, .closing .bracket,
    .kw "id", .punct ':' false, .kw "i64", .closing .brace, .closing .brace]

/-- The mapping of the struct, in its module. -/
def entryMapping (module : String) : RowMapping :=
  ⟨.plain "Entry", [.plain module], "entries", some ⟨.plain "id", "id"⟩, [], none, none, []⟩

theorem isParsed_entryFile {module : String}
    (hlex : Token.lexChars? (dropShebang (dropMark (entryText module).toList)) =
      some (entryTokens module))
    (hitems : itemsOfTokens? (entryTokens module) = some (entryFile module).items) :
    ∀ file ∈ [entryFile module], file.IsParsed := by
  intro file hf
  rw [List.mem_singleton.mp hf]
  exact ⟨entryText module, by rw [parseFile?, hlex, Option.bind_some, hitems]⟩

/-- The scan finds the struct, whatever the module is called. -/
theorem result_scan_entryFile (module : String) :
    ((⟨"notes", ".", [entryFile module]⟩ : SourceSet).scan none).result =
      .ok [entryMapping module] := by
  have hplaced : placedStructs [] (entryFile module).items = [⟨[.plain module], entryDecl⟩] := by
    simp [entryFile, placedStructs]
  have hdecl : (mappingOfStruct entryDecl).result = .ok (some
      ⟨.plain "Entry", [], "entries", some ⟨.plain "id", "id"⟩, [], none, none, []⟩) := by
    decide +kernel
  rw [SourceSet.scan_none_eq_ok]
  simp only [List.forall_mem_singleton, List.flatMap_singleton, hplaced]
  simp [SourceFile.failures, SourceFile.mappings, PlacedStruct.failure?, PlacedStruct.mapping?,
    hdecl, entryFile, SourceFile.modulePrefix, Except.toOption, RowMapping.inModules, entryMapping]

theorem isPlainText_defaultText : RuntimePath.IsPlainText RuntimePath.defaultText :=
  ⟨true, [.plain "dbobj"], by simp, fun id hid => .inl (List.mem_singleton.mp hid ▸ rfl),
    by decide +kernel⟩

/-- The unit for a struct in a module with an ordinary name is laid out. -/
theorem generate_isFormatted_iff_old :
    RuntimePath.IsPlainText RuntimePath.defaultText ∧
    (∀ file ∈ [entryFile "old"], file.IsParsed) ∧
    ((⟨"notes", ".", [entryFile "old"]⟩ : SourceSet).scan none).result =
      .ok [entryMapping "old"] ∧
    (selected ⟨"notes", ".", [entryFile "old"]⟩ []).result = .ok [entryMapping "old"] ∧
    ∃ unit, (generate ⟨"notes", ".", [entryFile "old"]⟩ RuntimePath.defaultText "" []).result =
      .ok unit ∧ unit.isFormatted = true := by
  have hset : ∀ file ∈ (⟨"notes", ".", [entryFile "old"]⟩ : SourceSet).files, file.IsParsed :=
    isParsed_entryFile (by decide +kernel) (by cbv)
  have hscan := result_scan_entryFile "old"
  obtain ⟨hchosen, hunits⟩ := generate_isFormatted_iff isPlainText_defaultText hset "" []
  have hselected := hchosen _ hscan
  obtain ⟨unit, hunit, hformatted, -⟩ := hunits _ hselected
  exact ⟨isPlainText_defaultText, hset, hscan, hselected, unit, hunit,
    hformatted.mpr (by decide)⟩

/-- That for a struct in a module `try` is not: the path of a type cannot begin with it. -/
theorem generate_not_isFormatted :
    RuntimePath.IsPlainText RuntimePath.defaultText ∧
    (∀ file ∈ [entryFile "try"], file.IsParsed) ∧
    ((⟨"notes", ".", [entryFile "try"]⟩ : SourceSet).scan none).result =
      .ok [entryMapping "try"] ∧
    let report := generate ⟨"notes", ".", [entryFile "try"]⟩ RuntimePath.defaultText "" []
    report.warnings = [.invalidCode, .invalidCodeHint] ∧
      ∃ unit, report.result = .ok unit ∧ unit.isFormatted = false := by
  have hset : ∀ file ∈ (⟨"notes", ".", [entryFile "try"]⟩ : SourceSet).files, file.IsParsed :=
    isParsed_entryFile (by decide +kernel) (by cbv)
  have hscan := result_scan_entryFile "try"
  obtain ⟨unit, hunit, hformatted, hwarnings⟩ :=
    generate_formats isPlainText_defaultText hset "" (result_selected hscan [])
  have hplain : unit.isFormatted = false := by
    rw [← Bool.not_eq_true, hformatted]
    decide
  have hnone : (selected ⟨"notes", ".", [entryFile "try"]⟩ []).warnings = [] := by
    rw [warnings_selected hscan, if_pos (by decide), SourceSet.warnings_scan hscan]
    simp only [List.flatMap_singleton]
    simp [entryFile, placedStructs]
    decide +kernel
  refine ⟨isPlainText_defaultText, hset, hscan, ?_, unit, hunit, hplain⟩
  rw [hwarnings, hnone, hplain]
  rfl

end GeneratedUnit

end TaggedRows
