import Mathlib.Data.List.Perm.Subperm
import TaggedRows.Proofs.Accessor.Contract
import TaggedRows.Proofs.Accessor.Layout
import TaggedRows.Proofs.GeneratedUnit.Banner
import TaggedRows.Proofs.TypeList

/-!
# The mappings that a unit has blocks for

- **Scans** (`SourceSet.result_scan_some`): where the scan for all structs succeeds, the scan for a
  name gives those of its mappings that have the name. Its warnings are about the structs with the
  name (`SourceSet.warnings_scan`).
- **Requests** (`result_requested`, `warnings_requested`): the scans for the names, one after the
  other.
- **Units** (`Renders`, `generate_selects`): a unit has a block for every mapping that is asked
  for, and no block twice.
-/

namespace TaggedRows

open Source

/-! ## Scans -/

section

variable {α β : Type} {r : Report α} {a : α}

/-- Both parts of a computation warn, if the first succeeds. -/
theorem Report.warnings_bind (h : r.result = .ok a) (f : α → Report β) :
    (r >>= f).warnings = r.warnings ++ (f a).warnings := by
  change (Report.bind r f).warnings = _
  rw [Report.bind, h]

end

theorem PlacedStruct.mapping?_eq_some {s : PlacedStruct} {m : RowMapping}
    (h : s.mapping? = some m) : (mappingOfStruct s.decl).result = .ok (some m) := by
  rw [mapping?] at h
  split at h
  · cases h
  · next hr => rw [hr, h]

theorem PlacedStruct.ident_of_mapping? {s : PlacedStruct} {m : RowMapping}
    (h : s.mapping? = some m) : m.ident = s.decl.ident :=
  ident_of_mappingOfStruct (mapping?_eq_some h)

/-- A filter by name takes the mappings with the name. -/
theorem SourceFile.mappings_filter (file : SourceFile) (structs : List PlacedStruct)
    (name : String) : file.mappings (structs.filter (·.named (some name))) =
      (file.mappings structs).filter (·.name = name) := by
  rw [SourceFile.mappings, SourceFile.mappings, List.filter_filterMap, List.filterMap_filter]
  congr 1
  funext s
  cases hm : s.mapping? with
  | none => simp
  | some m =>
    have hident := PlacedStruct.ident_of_mapping? hm
    have hname : (m.inModules (file.modulePrefix.toOption.getD [] ++ s.modules)).name =
        s.decl.ident.name := congrArg Ident.name hident
    rw [Option.map_some, Option.filter_some, hname]
    by_cases h : s.decl.ident.name = name
    · simp [PlacedStruct.named, h]
    · simp [PlacedStruct.named, h, Ne.symm h]

/-- A file with fewer candidates fails no more. -/
theorem SourceFile.failures_filter {file : SourceFile} {structs : List PlacedStruct}
    (h : file.failures structs = []) (keep : PlacedStruct → Bool) :
    file.failures (structs.filter keep) = [] := by
  rw [SourceFile.failures, List.append_eq_nil_iff] at h ⊢
  obtain ⟨hfail, hmodule⟩ := h
  refine ⟨?_, ?_⟩
  · rw [List.filterMap_eq_nil_iff] at hfail ⊢
    exact fun s hs => hfail s (List.mem_of_mem_filter hs)
  · split
    · next m ms e hms he =>
      obtain ⟨s, hs, hm⟩ := List.mem_filterMap.mp (hms ▸ List.mem_cons_self : m ∈ _)
      have hmem := List.mem_filterMap.mpr ⟨s, List.mem_of_mem_filter hs, hm⟩
      cases hall : structs.filterMap PlacedStruct.mapping? with
      | nil => simp [hall] at hmem
      | cons m' ms' => simp [hall, he] at hmodule
    · rfl

theorem firstOr_eq_ok {α : Type} {es : List Failure} {a b : α} :
    firstOr es a = .ok b ↔ es = [] ∧ a = b := by
  cases es <;> simp [firstOr]

namespace SourceSet

variable {set : SourceSet} {all : List RowMapping}

/-- A scan for all structs that succeeds meets no failure, and gives the mappings of all. -/
theorem scan_none_eq_ok : (set.scan none).result = .ok all ↔
    (∀ file ∈ set.files, file.failures (placedStructs [] file.items) = []) ∧
      all = set.files.flatMap fun file => file.mappings (placedStructs [] file.items) := by
  have hkeep : ∀ structs : List PlacedStruct, structs.filter (·.named none) = structs := fun _ =>
    List.filter_true _
  rw [scan, result_scan_go, firstOr_eq_ok, List.flatMap_eq_nil_iff]
  simp only [hkeep, eq_comm]

/-- A scan for a name gives those of all mappings that have the name. -/
theorem result_scan_some (h : (set.scan none).result = .ok all) (name : String) :
    (set.scan (some name)).result = .ok (all.filter (·.name = name)) := by
  obtain ⟨hfail, rfl⟩ := scan_none_eq_ok.mp h
  rw [scan, result_scan_go, firstOr_eq_ok, List.flatMap_eq_nil_iff, List.filter_flatMap]
  refine ⟨fun file hf => SourceFile.failures_filter (hfail file hf) _, ?_⟩
  exact List.flatMap_congr fun file _ => file.mappings_filter _ name

end SourceSet

/-! ## Warnings -/

theorem warnings_mappingOfStruct {decl : StructDecl} {w : Warning}
    (h : w ∈ (mappingOfStruct decl).warnings) : w = .genericStruct decl.ident.name := by
  rw [mappingOfStruct] at h
  split at h
  · cases h
  · split at h
    · cases h
    · cases h
    · split at h
      · exact List.mem_singleton.mp h
      · cases h

/-- A struct with named fields, one of which has a column. -/
def PlacedStruct.IsStored (s : PlacedStruct) : Prop :=
  ∃ fields tagged, s.decl.fields = .named fields ∧
    taggedFields s.decl.ident fields = .ok tagged ∧ ∃ f ∈ tagged, f.tag.isStored = true

/-- A struct with columns has a mapping, if it can be described and is not generic. -/
theorem PlacedStruct.IsStored.mapping_or_warning {s : PlacedStruct} (h : s.IsStored)
    (hs : s.failure? = none) : (∃ m, s.mapping? = some m) ∨ s.decl.isGeneric = true ∧
      .genericStruct s.decl.ident.name ∈ (mappingOfStruct s.decl).warnings := by
  obtain ⟨fields, tagged, hf, ht, f, hmem, hstored⟩ := h
  have hany : tagged.any (·.tag.isStored) = true := List.any_eq_true.mpr ⟨f, hmem, hstored⟩
  have hnone : RowMapping.ofFields s.decl.ident tagged ≠ .ok none := by
    rw [RowMapping.ofFields_eq, hany]
    split
    · nofun
    · rw [if_neg (by decide)]
      split <;> nofun
  rw [failure?] at hs
  rw [mapping?]
  rw [mappingOfStruct, hf] at hs ⊢
  simp only [ht, Except.bind] at hs ⊢
  cases ho : RowMapping.ofFields s.decl.ident tagged with
  | error e => simp [ho, Report.fail] at hs
  | ok mapping =>
    cases mapping with
    | none => exact absurd ho hnone
    | some m =>
      by_cases hg : s.decl.isGeneric = true
      · simp [hg]
      · exact .inl ⟨m, by simp [hg]⟩

/-- The warnings about structs, in the order of the text. -/
def warningsOf (structs : List PlacedStruct) : List Warning :=
  structs.flatMap fun s => (mappingOfStruct s.decl).warnings

theorem warnings_mappingsOf {structs : List PlacedStruct} {mappings : List RowMapping}
    (h : (mappingsOf structs).result = .ok mappings) :
    (mappingsOf structs).warnings = warningsOf structs := by
  induction structs generalizing mappings with
  | nil => rfl
  | cons s rest ih =>
    rw [mappingsOf, Report.result_bind] at h
    obtain ⟨mapping, hs, h⟩ := bind_eq_ok.mp h
    rw [Report.result_bind] at h
    obtain ⟨others, hrest, -⟩ := bind_eq_ok.mp h
    rw [mappingsOf, Report.warnings_bind hs, Report.warnings_bind hrest, ih hrest]
    exact congrArg _ (List.append_nil _)

/-- A scan of a file that succeeds warns about the structs that pass the filter. -/
theorem SourceFile.warnings_scan {file : SourceFile} {wanted : Option String}
    {mappings : List RowMapping} (h : (file.scan wanted).result = .ok mappings) :
    (file.scan wanted).warnings =
      warningsOf ((placedStructs [] file.items).filter (·.named wanted)) := by
  rw [SourceFile.scan, Report.result_bind] at h
  obtain ⟨found, hfound, h⟩ := bind_eq_ok.mp h
  rw [SourceFile.scan, Report.warnings_bind hfound, warnings_mappingsOf hfound]
  split
  · exact List.append_nil _
  · next hne =>
    rw [if_neg hne, Report.result_bind] at h
    obtain ⟨path, hpath, -⟩ := bind_eq_ok.mp h
    rw [Report.warnings_bind hpath]
    exact List.append_nil _

/-- So does a scan of a set. -/
theorem SourceSet.warnings_scan {set : SourceSet} {wanted : Option String}
    {mappings : List RowMapping} (h : (set.scan wanted).result = .ok mappings) :
    (set.scan wanted).warnings = set.files.flatMap fun file =>
      warningsOf ((placedStructs [] file.items).filter (·.named wanted)) := by
  rw [scan] at h ⊢
  generalize set.files = files at h ⊢
  induction files generalizing mappings with
  | nil => rfl
  | cons file files ih =>
    rw [scan.go, Report.result_bind] at h
    obtain ⟨found, hfound, h⟩ := bind_eq_ok.mp h
    rw [Report.result_bind] at h
    obtain ⟨rest, hrest, -⟩ := bind_eq_ok.mp h
    rw [scan.go, Report.warnings_bind hfound, Report.warnings_bind hrest, ih hrest,
      SourceFile.warnings_scan hfound, List.flatMap_cons]
    exact congrArg _ (List.append_nil _)

/-! ## Requests -/

namespace GeneratedUnit

variable {set : SourceSet} {names : List String}

/-- The warning about a name that nothing was found for. -/
def missingName (name : String) (found : List RowMapping) : List Warning :=
  if found = [] then [.typeNotFound name] else []

/-- The scan for a name, its warning, and then the other names. -/
theorem requested_cons (set : SourceSet) (name : String) (names : List String) :
    requested set (name :: names) = (do
      let found ← set.scan (some name)
      (⟨missingName name found, .ok ()⟩ : Report Unit)
      let others ← requested set names
      return found ++ others) := by
  rw [requested]
  congr 1
  funext found
  cases found <;> rfl

/-- A request fails exactly if a scan for one of its names does. -/
theorem result_requested (set : SourceSet) (names : List String) :
    (requested set names).result =
      (names.mapM fun name => (set.scan (some name)).result).map List.flatten := by
  induction names with
  | nil => rfl
  | cons name names ih =>
    rw [requested_cons, List.mapM_cons]
    simp only [Report.result_bind, ih]
    cases (set.scan (some name)).result with
    | error e => rfl
    | ok found =>
      cases names.mapM fun name => (set.scan (some name)).result <;> rfl

/-- A request that succeeds warns about the structs that it finds, and about the names that it finds
nothing for. -/
theorem warnings_requested {found : String → List RowMapping}
    (h : ∀ name ∈ names, (set.scan (some name)).result = .ok (found name)) :
    (requested set names).warnings = names.flatMap fun name =>
      (set.scan (some name)).warnings ++ missingName name (found name) := by
  induction names with
  | nil => rfl
  | cons name names ih =>
    rw [List.forall_mem_cons] at h
    have hrest : (requested set names).result = .ok ((names.map found).flatten) := by
      rw [result_requested, mapM_eq_ok_map h.2]
      rfl
    rw [requested_cons, Report.warnings_bind h.1, Report.warnings_bind rfl,
      Report.warnings_bind hrest, ih h.2, List.flatMap_cons, List.append_assoc]
    exact congrArg _ (congrArg _ (List.append_nil _))

/-! ## Units -/

/-- Names that do not repeat select no element twice. -/
theorem flatMap_filter_subperm {α β : Type} [DecidableEq β] (key : α → β) {keys : List β}
    (h : keys.Nodup) (l : List α) :
    (keys.flatMap fun k => l.filter fun a => key a = k).Subperm l := by
  induction keys generalizing l with
  | nil => exact List.nil_subperm
  | cons k keys ih =>
    obtain ⟨hk, hn⟩ := List.nodup_cons.mp h
    have hrest : (keys.flatMap fun k' => l.filter fun a => key a = k') =
        keys.flatMap fun k' =>
          (l.filter fun a => !decide (key a = k)).filter fun a => key a = k' := by
      refine List.flatMap_congr fun k' hk' => ?_
      have hne : k' ≠ k := fun he => hk (he ▸ hk')
      rw [List.filter_filter]
      refine List.filter_congr fun a _ => ?_
      by_cases ha : key a = k' <;> simp [ha, hne]
    rw [List.flatMap_cons, hrest]
    exact (List.Subperm.append (List.Subperm.refl _) (ih hn _)).trans
      (List.filter_append_perm (fun a => decide (key a = k)) l).subperm

/-- The unit lists the types of the mappings. Behind its first lines stands a text that shows the
tokens of the import and then of one block for each mapping, in this order and no others, be it laid
out or written as plain tokens. Each of these blocks reads as the accessors of the mapped type. -/
structure Renders (runtime : RuntimePath) (invocation moduleName : String)
    (mappings : List RowMapping) (unit : GeneratedUnit) : Prop where
  types : unit.types = mappings.map RowMapping.qualifiedName
  source : unit.source = banner invocation moduleName ++ endLine
    (if unit.isFormatted then
      (Layout.consistent 0 (importLayout runtime :: mappings.map (·.layout runtime))).render
    else Token.print (importTokens runtime ++ mappings.flatMap (·.tokens runtime)))
  shows : ∃ code, unit.source = banner invocation moduleName ++ code ∧
    Token.IsTypeset (importTokens runtime ++ mappings.flatMap (·.tokens runtime)) code.toList
  block : ∀ m ∈ mappings,
    Accessor.Reader.block? runtime (m.tokens runtime) = some (m.typePath, m.accessors)

/-- A text that is ended by a line break shows the same tokens. -/
theorem isTypeset_endLine {ts : List Token} {text : String} (h : Token.IsTypeset ts text.toList) :
    Token.IsTypeset ts (endLine text).toList := by
  rw [endLine]
  split
  · exact h
  · obtain ⟨e, he, htext⟩ := h
    have hall := htext.append (Token.typeset_lineEnd he.ne_joint)
    rw [List.append_nil] at hall
    rw [String.toList_append]
    exact ⟨e.blanked, e.blanked_allows.canEnd he, hall⟩

theorem renders_ofMappings {text : String} {runtime : RuntimePath}
    (hr : RuntimePath.parse? text = some runtime) (invocation moduleName : String)
    (mappings : List RowMapping) :
    ∃ unit, (ofMappings runtime invocation moduleName mappings).result = .ok unit ∧
      Renders runtime invocation moduleName mappings unit := by
  have hblock : ∀ m ∈ mappings,
      Accessor.Reader.block? runtime (m.tokens runtime) = some (m.typePath, m.accessors) :=
    fun m _ => Accessor.Reader.block?_tokens (RuntimePath.hasArguments_of_parse? hr) m
  rw [ofMappings]
  split
  · have hlayout := (typesets_layout runtime mappings).isTypeset_render (.inl rfl)
    exact ⟨_, rfl, rfl, rfl, ⟨_, rfl, isTypeset_endLine hlayout⟩, hblock⟩
  · exact ⟨_, rfl, rfl, rfl, ⟨_, rfl, isTypeset_endLine (isTypeset_print runtime mappings)⟩, hblock⟩

theorem not_mem_warnings_ofMappings (runtime : RuntimePath) (invocation moduleName name : String)
    (mappings : List RowMapping) :
    .typeNotFound name ∉ (ofMappings runtime invocation moduleName mappings).warnings := by
  rw [ofMappings]
  split
  · exact List.not_mem_nil
  · change _ ∉ [Warning.invalidCode, Warning.invalidCodeHint]
    simp

/-- All mappings where no name is given, and else those with the names, one name after the other. -/
def chosen (names : List String) (all : List RowMapping) : List RowMapping :=
  if names = [] then all else names.flatMap fun name => all.filter (·.name = name)

/-- What becomes of the structs that have columns, and of the names that nothing is found for. -/
structure Accounts (set : SourceSet) (names : List String) (all mappings : List RowMapping)
    (warnings : List Warning) : Prop where
  stored : ∀ file ∈ set.files, ∀ s ∈ placedStructs [] file.items,
    names = [] ∨ s.decl.ident.name ∈ names → s.IsStored →
      (∃ m ∈ mappings, m ∈ file.mappings [s]) ∨
        s.decl.isGeneric = true ∧ .genericStruct s.decl.ident.name ∈ warnings
  missing : ∀ name, warnings.count (.typeNotFound name) =
    if name ∈ names ∧ ∀ m ∈ all, m.name ≠ name then 1 else 0

/-- What only one of the keys gives is given once. -/
theorem count_flatMap_of_nodup {α β : Type} [DecidableEq α] [BEq β] {keys : List α} (h : keys.Nodup)
    {f : α → List β} {x : β} {key : α} {n : Nat}
    (hcount : ∀ k, (f k).count x = if k = key then n else 0) :
    (keys.flatMap f).count x = if key ∈ keys then n else 0 := by
  induction keys with
  | nil => rfl
  | cons k keys ih =>
    obtain ⟨hk, hn⟩ := List.nodup_cons.mp h
    rw [List.flatMap_cons, List.count_append, hcount, ih hn]
    by_cases he : k = key
    · simp [he, he ▸ hk]
    · simp [he, Ne.symm he]

/-- A scan does not warn about missing names. -/
theorem not_mem_warnings_scan {wanted : Option String} {mappings : List RowMapping}
    (hok : (set.scan wanted).result = .ok mappings) (name : String) :
    .typeNotFound name ∉ (set.scan wanted).warnings := by
  rw [SourceSet.warnings_scan hok]
  intro hmem
  obtain ⟨file, -, hmem⟩ := List.mem_flatMap.mp hmem
  obtain ⟨s, -, hw⟩ := List.mem_flatMap.mp hmem
  cases warnings_mappingOfStruct hw

section

variable {all : List RowMapping} (h : (set.scan none).result = .ok all)
include h

theorem result_selected (types : List String) :
    (selected set types).result = .ok (chosen (TypeList.ofNames types) all) := by
  rw [selected, chosen]
  split
  · next hnames => rw [if_pos hnames, h]
  · next hnames =>
    rw [if_neg hnames, result_requested,
      mapM_eq_ok_map fun name _ => SourceSet.result_scan_some h name, List.flatMap_def]
    rfl

theorem warnings_selected (types : List String) : (selected set types).warnings =
    if TypeList.ofNames types = [] then (set.scan none).warnings
    else (TypeList.ofNames types).flatMap fun name =>
      (set.scan (some name)).warnings ++ missingName name (all.filter (·.name = name)) := by
  rw [selected]
  split
  · next hnames => rw [if_pos hnames]
  · next hnames =>
    rw [if_neg hnames, warnings_requested fun name _ => SourceSet.result_scan_some h name]

/-- A struct with columns that is asked for has its mapping among the chosen ones, or a warning. -/
theorem stored_chosen (types : List String) {file : SourceFile} (hf : file ∈ set.files)
    {s : PlacedStruct} (hs : s ∈ placedStructs [] file.items)
    (hname : TypeList.ofNames types = [] ∨ s.decl.ident.name ∈ TypeList.ofNames types)
    (hstored : s.IsStored) :
    (∃ m ∈ chosen (TypeList.ofNames types) all, m ∈ file.mappings [s]) ∨
      s.decl.isGeneric = true ∧
        .genericStruct s.decl.ident.name ∈ (selected set types).warnings := by
  obtain ⟨hfail, hall⟩ := SourceSet.scan_none_eq_ok.mp h
  have hnone : s.failure? = none :=
    List.filterMap_eq_nil_iff.mp (List.append_eq_nil_iff.mp (hfail file hf)).1 s hs
  obtain ⟨m, hm⟩ | ⟨hg, hw⟩ := hstored.mapping_or_warning hnone
  · refine .inl ⟨m.inModules (file.modulePrefix.toOption.getD [] ++ s.modules), ?_, ?_⟩
    · have hin : m.inModules (file.modulePrefix.toOption.getD [] ++ s.modules) ∈ all := by
        rw [hall]
        exact List.mem_flatMap.mpr ⟨file, hf, List.mem_filterMap.mpr ⟨s, hs, by simp [hm]⟩⟩
      rw [chosen]
      split
      · exact hin
      · next hnames =>
        have hident := PlacedStruct.ident_of_mapping? hm
        refine List.mem_flatMap.mpr ⟨_, hname.resolve_left hnames, List.mem_filter.mpr ⟨hin, ?_⟩⟩
        simp [RowMapping.name, RowMapping.inModules, hident]
    · simp [SourceFile.mappings, hm]
  · refine .inr ⟨hg, ?_⟩
    have hscan : ∀ {wanted mappings}, (set.scan wanted).result = .ok mappings →
        s.named wanted = true →
          .genericStruct s.decl.ident.name ∈ (set.scan wanted).warnings := by
      intro wanted mappings hok hnamed
      rw [SourceSet.warnings_scan hok]
      exact List.mem_flatMap.mpr ⟨file, hf, List.mem_flatMap.mpr
        ⟨s, List.mem_filter.mpr ⟨hs, hnamed⟩, hw⟩⟩
    rw [warnings_selected h]
    split
    · exact hscan h rfl
    · next hnames =>
      refine List.mem_flatMap.mpr ⟨_, hname.resolve_left hnames, List.mem_append_left _ ?_⟩
      exact hscan (SourceSet.result_scan_some h _) (by simp [PlacedStruct.named])

theorem count_warnings_selected (types : List String) (name : String) :
    (selected set types).warnings.count (.typeNotFound name) =
      if name ∈ TypeList.ofNames types ∧ ∀ m ∈ all, m.name ≠ name then 1 else 0 := by
  rw [warnings_selected h]
  split
  · next hnames =>
    rw [hnames, if_neg (by simp)]
    exact List.count_eq_zero.mpr (not_mem_warnings_scan h name)
  · have hcount : ∀ other, ((set.scan (some other)).warnings ++
        missingName other (all.filter (·.name = other))).count (.typeNotFound name) =
          if other = name then if ∀ m ∈ all, m.name ≠ name then 1 else 0 else 0 := by
      intro other
      rw [List.count_append, List.count_eq_zero.mpr
        (not_mem_warnings_scan (SourceSet.result_scan_some h other) name), Nat.zero_add,
        missingName]
      by_cases ho : other = name
      · subst ho
        simp only [List.filter_eq_nil_iff, decide_eq_true_eq, if_true]
        split <;> simp
      · split <;> simp [ho]
    rw [count_flatMap_of_nodup (TypeList.nodup_ofNames types) hcount, ite_and]

end

theorem generate_eq {text : String} {runtime : RuntimePath}
    (hr : RuntimePath.parse? text = some runtime) (set : SourceSet) (invocation : String)
    (types : List String) : generate set text invocation types =
      selected set types >>= ofMappings runtime invocation set.name := by
  rw [generate, readRuntimePath, hr]
  rfl

/-- A unit for a list that is not blank fails exactly if the scan for one of its names does. -/
theorem exists_generate_eq_error {text : String} {runtime : RuntimePath}
    (hr : RuntimePath.parse? text = some runtime) (set : SourceSet) (invocation : String)
    {types : List String} (hne : TypeList.ofNames types ≠ []) :
    (∃ e, (generate set text invocation types).result = .error e) ↔
      ∃ name ∈ TypeList.ofNames types, ∃ e, (set.scan (some name)).result = .error e := by
  have hselected : selected set types = requested set (TypeList.ofNames types) := by
    rw [selected]
    split
    · next hnil => exact absurd hnil hne
    · rfl
  rw [generate_eq hr, Report.result_bind, hselected, result_requested, ← exists_mapM_eq_error]
  cases (TypeList.ofNames types).mapM fun name => (set.scan (some name)).result with
  | error e => simp [Except.map, Except.bind]
  | ok found =>
    obtain ⟨unit, hunit, -⟩ := ofMappings_eq runtime invocation set.name found.flatten
    simp [Except.map, Except.bind, hunit]

/-- Where the scan for all structs succeeds, every list of names makes a unit: it has a block for
each mapping of a struct whose name is asked for, name by name and then in the order of the scan,
and none of them twice. Where it fails, a list that is not blank fails as the scans for its names
do. -/
theorem generate_selects {runtimePath : String} {runtime : RuntimePath}
    (hr : RuntimePath.parse? runtimePath = some runtime) (set : SourceSet) (invocation : String)
    (types : List String) :
    let names := ((types.map TypeList.trimmed).filter (· ≠ "")).eraseDups
    let report := generate set runtimePath invocation types
    (∀ all, (set.scan none).result = .ok all →
      all = (set.files.flatMap fun file => file.mappings (placedStructs [] file.items)) ∧
        (chosen names all).Subperm all ∧
        Accounts set names all (chosen names all) report.warnings ∧
        ∃ unit, report.result = .ok unit ∧
          Renders runtime invocation set.name (chosen names all) unit) ∧
    (names ≠ [] → ((∃ e, report.result = .error e) ↔
      ∃ name ∈ names, ∃ e, (set.scan (some name)).result = .error e)) := by
  intro names report
  have hnames : TypeList.ofNames types = names := TypeList.ofNames_eq types
  have hreport : report = selected set types >>= ofMappings runtime invocation set.name :=
    generate_eq hr set invocation types
  refine ⟨fun all h => ?_, fun hne => ?_⟩
  · have hselected := hnames ▸ result_selected h types
    obtain ⟨unit, hunit, hrenders⟩ := renders_ofMappings hr invocation set.name (chosen names all)
    have hwarnings : report.warnings = (selected set types).warnings ++
        (ofMappings runtime invocation set.name (chosen names all)).warnings := by
      rw [hreport, Report.warnings_bind hselected]
    refine ⟨(SourceSet.scan_none_eq_ok.mp h).2, ?_, ⟨?_, ?_⟩, unit, ?_, hrenders⟩
    · rw [chosen]
      split
      · exact .refl _
      · exact flatMap_filter_subperm _ (hnames ▸ TypeList.nodup_ofNames types) all
    · intro file hf s hs hname hstored
      rw [← hnames] at hname ⊢
      obtain hmapping | ⟨hg, hw⟩ := stored_chosen h types hf hs hname hstored
      · exact .inl hmapping
      · exact .inr ⟨hg, hwarnings ▸ List.mem_append_left _ hw⟩
    · intro name
      rw [hwarnings, List.count_append, count_warnings_selected h, hnames,
        List.count_eq_zero.mpr (not_mem_warnings_ofMappings runtime invocation set.name name _),
        Nat.add_zero]
    · rw [hreport, Report.result_bind, hselected]
      exact hunit
  · rw [← hnames] at hne ⊢
    exact exists_generate_eq_error hr set invocation hne

/-- A struct like the sample one, but generic. -/
def draftDecl : StructDecl := { noteDecl with ident := .plain "Draft", isGeneric := true }

/-- A file with two structs of one name in different modules, and a generic one. -/
def notesFile : SourceFile :=
  ⟨"src/lib.rs",
    [.struct noteDecl, .module (.plain "old") [.struct draftDecl, .struct noteDecl]], none⟩

/-- Of two names asked for, one is that of two structs and the other of none. -/
theorem generate_selects_homonyms :
    RuntimePath.parse? RuntimePath.defaultText = some .default ∧
    ∃ all, ((⟨"notes", ".", [notesFile]⟩ : SourceSet).scan none).result = .ok all ∧
      all.map (·.qualifiedName) = ["Note", "old::Note"] ∧
      let report := generate ⟨"notes", ".", [notesFile]⟩ RuntimePath.defaultText ""
        [" Ghost", "", "Note ", "Ghost"]
      Accounts ⟨"notes", ".", [notesFile]⟩ ["Ghost", "Note"] all all report.warnings ∧
        ∃ unit, report.result = .ok unit ∧ Renders .default "" "notes" all unit := by
  have hr := RuntimePath.parse?_defaultText
  have hplaced : placedStructs [] notesFile.items = [⟨[], noteDecl⟩, ⟨[.plain "old"], draftDecl⟩,
      ⟨[.plain "old"], noteDecl⟩] := by
    simp [notesFile, placedStructs]
  have hall : ((⟨"notes", ".", [notesFile]⟩ : SourceSet).scan none).result = .ok
      (notesFile.mappings [⟨[], noteDecl⟩, ⟨[.plain "old"], draftDecl⟩,
        ⟨[.plain "old"], noteDecl⟩]) := by
    rw [SourceSet.scan_none_eq_ok, ← hplaced]
    simp only [List.forall_mem_singleton, List.flatMap_singleton, and_true]
    rw [hplaced]
    decide +kernel
  have hchosen : chosen ["Ghost", "Note"] (notesFile.mappings [⟨[], noteDecl⟩,
      ⟨[.plain "old"], draftDecl⟩, ⟨[.plain "old"], noteDecl⟩]) = notesFile.mappings
        [⟨[], noteDecl⟩, ⟨[.plain "old"], draftDecl⟩, ⟨[.plain "old"], noteDecl⟩] := by
    decide +kernel
  have hnames : (([" Ghost", "", "Note ", "Ghost"].map TypeList.trimmed).filter
      (· ≠ "")).eraseDups = ["Ghost", "Note"] := by
    decide +kernel
  obtain ⟨-, -, haccounts, unit, hunit, hrenders⟩ :=
    (generate_selects hr ⟨"notes", ".", [notesFile]⟩ "" [" Ghost", "", "Note ", "Ghost"]).1 _ hall
  rw [hnames, hchosen] at haccounts hrenders
  exact ⟨hr, _, hall, by decide +kernel, haccounts, unit, hunit, hrenders⟩

end GeneratedUnit

end TaggedRows
