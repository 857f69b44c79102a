import Mathlib.Data.List.Permutation
import TaggedRows.Proofs.Attempts
import TaggedRows.Proofs.SourceSet.Candidates

/-!
# What a scan finds

- **Failures and mappings** (`PlacedStruct.failure?`, `PlacedStruct.mapping?`): what the
  description of a struct gives, of a file `SourceFile.failures` and `SourceFile.mappings`.
- **Files that were read** (`SourceSet.isRead_of_ofTexts`, `SourceSet.isRead_of_load`): every way
  to make up a source set reads its files.
- **The result** (`SourceSet.scan_result_candidates`): the first failure in the order of the text,
  or else the mappings of all candidates in that order, in their modules.
-/

namespace TaggedRows

open Source

/-! ## Failures and mappings -/

/-- Why the struct cannot be described. -/
def PlacedStruct.failure? (s : PlacedStruct) : Option Failure :=
  match (mappingOfStruct s.decl).result with
  | .error e => some e
  | .ok _ => none

/-- The mapping of the struct, if it has one. -/
def PlacedStruct.mapping? (s : PlacedStruct) : Option RowMapping :=
  match (mappingOfStruct s.decl).result with
  | .error _ => none
  | .ok mapping => mapping

/-- The failures that a file with these candidates meets, in the order in which it meets them. Its
module needs a name only if one of them has a mapping. -/
def SourceFile.failures (file : SourceFile) (structs : List PlacedStruct) : List Failure :=
  structs.filterMap PlacedStruct.failure? ++
    match structs.filterMap PlacedStruct.mapping?, file.modulePrefix with
    | _ :: _, .error e => [e]
    | _, _ => []

/-- The mappings of these candidates of a file, each in the modules around its struct. -/
def SourceFile.mappings (file : SourceFile) (structs : List PlacedStruct) : List RowMapping :=
  structs.filterMap fun s => s.mapping?.map fun m =>
    m.inModules (file.modulePrefix.toOption.getD [] ++ s.modules)

/-- The first failure; a value if there is none. -/
def firstOr {α : Type} (es : List Failure) (a : α) : Except Failure α :=
  match es with
  | [] => .ok a
  | e :: _ => .error e

theorem firstOr_append {α : Type} (es fs : List Failure) (a : α) :
    firstOr (es ++ fs) a = (firstOr es a).bind fun a => firstOr fs a := by
  cases es <;> rfl

/-! ## Scanning -/

@[simp] theorem Report.result_pure {α : Type} (a : α) : (pure a : Report α).result = .ok a := rfl

@[simp] theorem Report.result_bind {α β : Type} (r : Report α) (f : α → Report β) :
    (r >>= f).result = r.result.bind fun a => (f a).result := by
  show (Report.bind r f).result = _
  unfold Report.bind
  cases r.result <;> rfl

/-- The mappings of structs, or the first failure of one of them. -/
theorem result_mappingsOf (structs : List PlacedStruct) :
    (mappingsOf structs).result = firstOr (structs.filterMap PlacedStruct.failure?)
      (structs.filterMap fun s => s.mapping?.map (·.inModules s.modules)) := by
  induction structs with
  | nil => rfl
  | cons s rest ih =>
    simp only [mappingsOf, Report.result_bind, ih, List.filterMap_cons, PlacedStruct.failure?,
      PlacedStruct.mapping?]
    cases (mappingOfStruct s.decl).result with
    | error e => rfl
    | ok mapping =>
      cases rest.filterMap PlacedStruct.failure? with
      | cons e es => rfl
      | nil => cases mapping <;> rfl

/-- The modules of a file go in front of the inline ones. -/
theorem map_inModules (path : List Ident) (structs : List PlacedStruct) :
    (structs.filterMap fun s => s.mapping?.map (·.inModules s.modules)).map
      (fun m => m.inModules (path ++ m.modulePath)) =
      structs.filterMap fun s => s.mapping?.map (·.inModules (path ++ s.modules)) := by
  rw [List.map_filterMap]
  congr 1
  funext s
  cases s.mapping? <;> rfl

theorem isEmpty_filterMap_inModules (structs : List PlacedStruct) :
    (structs.filterMap fun s => s.mapping?.map (·.inModules s.modules)).isEmpty =
      (structs.filterMap PlacedStruct.mapping?).isEmpty := by
  rw [Bool.eq_iff_iff]
  simp

/-- The mappings in a file, or its first failure. -/
theorem SourceFile.result_scan (file : SourceFile) (wanted : Option String) :
    (file.scan wanted).result =
      let structs := (placedStructs [] file.items).filter (·.named wanted)
      firstOr (file.failures structs) (file.mappings structs) := by
  simp only [SourceFile.scan, Report.result_bind, result_mappingsOf, SourceFile.failures,
    SourceFile.mappings]
  generalize (placedStructs [] file.items).filter (·.named wanted) = structs
  rw [firstOr_append]
  cases structs.filterMap PlacedStruct.failure? with
  | cons e es => rfl
  | nil =>
    simp only [firstOr, Except.bind, isEmpty_filterMap_inModules]
    cases hm : structs.filterMap PlacedStruct.mapping? with
    | nil =>
      have hall : ∀ path : List Ident,
          structs.filterMap (fun s => s.mapping?.map (·.inModules (path ++ s.modules))) = [] := by
        intro path
        simpa using hm
      simp [hall]
    | cons m ms =>
      cases hp : file.modulePrefix with
      | error e => simp [Report.ofExcept, Except.bind]
      | ok path => simp [Report.ofExcept, Except.bind, map_inModules, Except.toOption]

/-- The mappings in the files, or the first failure of one of them. -/
theorem SourceSet.result_scan_go (wanted : Option String) (files : List SourceFile) :
    (SourceSet.scan.go wanted files).result =
      let structs := fun file : SourceFile =>
        (placedStructs [] file.items).filter (·.named wanted)
      firstOr (files.flatMap fun file => file.failures (structs file))
        (files.flatMap fun file => file.mappings (structs file)) := by
  induction files with
  | nil => rfl
  | cons file files ih =>
    simp only [SourceSet.scan.go, Report.result_bind, SourceFile.result_scan, ih,
      List.flatMap_cons]
    cases file.failures ((placedStructs [] file.items).filter (·.named wanted)) with
    | cons e es => rfl
    | nil =>
      cases files.flatMap fun file =>
        file.failures ((placedStructs [] file.items).filter (·.named wanted)) <;> rfl

/-! ## Files that were read -/

theorem SourceFile.isRead_of_ofText {several : Bool} {path text : String} {file : SourceFile}
    (h : SourceFile.ofText several path text = .ok file) : file.IsRead := by
  unfold SourceFile.ofText at h
  split at h
  · cases h
  · next items hp =>
    cases h
    obtain ⟨ts, -, hi⟩ := Option.bind_eq_some_iff.mp hp
    exact ⟨ts, hi⟩

/-- A field with a tag, as it is read from source text. -/
def taggedDecl (name tag : String) (type : List Token) : FieldDecl :=
  ⟨[⟨[.kw "db", .opening .paren, .str tag, .closing .paren]⟩], .plain name, type⟩

namespace SourceSet

/-- The files of a set made from texts are those that the texts give. -/
theorem exists_ofText_of_ofTexts {name : String} {sources : List (String × String)}
    {set : SourceSet} (h : ofTexts name sources = .ok set) : ∀ file ∈ set.files,
      ∃ several path text, SourceFile.ofText several path text = .ok file := by
  intro file hf
  unfold ofTexts at h
  simp only [bind, Except.bind] at h
  split at h
  · cases h
  · next files hm =>
    cases h
    obtain ⟨⟨path, text⟩, -, ht⟩ := exists_of_mem_mapM hm hf
    exact ⟨_, path, text, ht⟩

theorem exists_ofText_of_loadFile {tree : FileTree} {excluded : Option Location} {several : Bool}
    {path : String} {file : SourceFile}
    (h : loadFile tree excluded several path = .ok (some file)) :
    ∃ text, SourceFile.ofText several path text = .ok file := by
  unfold loadFile at h
  split at h
  · cases h
  · split at h
    · cases h
    · next text _ =>
      split at h
      · cases h
      · cases ht : SourceFile.ofText several path text with
        | error e => simp [ht, Except.map] at h
        | ok file' =>
          simp only [ht, Except.map, Except.ok.injEq, Option.some.injEq] at h
          exact ⟨text, h ▸ ht⟩

/-- The files of a set that is loaded are those that their texts give. -/
theorem exists_ofText_of_load {tree : FileTree} {name dir : String} {paths : List String}
    {exclude : Option String} {several : Bool} {set : SourceSet}
    (h : load tree name dir paths exclude several = .ok set) : ∀ file ∈ set.files,
      ∃ path text, SourceFile.ofText several path text = .ok file := by
  intro file hf
  unfold load at h
  simp only [bind, Except.bind] at h
  split at h
  · cases h
  · next loaded hm =>
    split at h
    · cases h
    · cases h
      obtain ⟨file', hmem, rfl⟩ := List.mem_filterMap.mp hf
      obtain ⟨path, -, hp⟩ := exists_of_mem_mapM hm hmem
      exact ⟨path, exists_ofText_of_loadFile hp⟩

theorem isRead_of_ofTexts {name : String} {sources : List (String × String)} {set : SourceSet}
    (h : ofTexts name sources = .ok set) : ∀ file ∈ set.files, file.IsRead := by
  intro file hf
  obtain ⟨several, path, text, ht⟩ := exists_ofText_of_ofTexts h file hf
  exact SourceFile.isRead_of_ofText ht

theorem isRead_of_load {tree : FileTree} {name dir : String} {paths : List String}
    {exclude : Option String} {several : Bool} {set : SourceSet}
    (h : load tree name dir paths exclude several = .ok set) : ∀ file ∈ set.files, file.IsRead := by
  intro file hf
  obtain ⟨path, text, ht⟩ := exists_ofText_of_load h file hf
  exact SourceFile.isRead_of_ofText ht

/-- A scan finds the structs in the text of the files that pass the filter: they are listed once
each, by files and then by places. It gives the mappings of all of them in that order, each in the
modules of its file and the inline modules around it; or the first failure, where the missing name
of a file comes after the failures of its structs. -/
theorem scan_result_candidates {set : SourceSet} (h : ∀ file ∈ set.files, file.IsRead)
    (wanted : Option String) : ∃ found : List (SourceFile × List PlacedStruct),
      found.map (·.1) = set.files ∧
      (∀ p ∈ found, ∀ structs, p.1.Candidates wanted structs ↔ structs = p.2) ∧
      (set.scan wanted).result = firstOr (found.flatMap fun p => p.1.failures p.2)
        (found.flatMap fun p => p.1.mappings p.2) := by
  refine ⟨set.files.map fun file =>
    (file, (placedStructs [] file.items).filter (·.named wanted)), ?_, ?_, ?_⟩
  · simp [Function.comp_def]
  · intro p hp structs
    obtain ⟨file, hf, rfl⟩ := List.mem_map.mp hp
    exact SourceFile.candidates_iff (h file hf) wanted structs
  · unfold scan
    rw [result_scan_go]
    simp [List.flatMap_map]

/-- A field of a number with a tag. -/
def columnDecl (name tag : String) : FieldDecl := taggedDecl name tag [.kw "f64"]

/-- The tokens of a struct with one such field. -/
def columnTokens (type name tag : String) : List Token :=
  [.kw "struct", .kw type, .opening .brace, .punct '#' false, .opening .bracket, .kw "db",
    .opening .paren, .str tag, .closing .paren, .closing .bracket, .kw name, .punct ':' false,
    .kw "f64", .closing .brace]

/-- Three files: the first has a struct in an inline module, the second cannot be named as a module
and has a struct without a table, and the third has structs with columns and without. -/
def solids : SourceSet :=
  ⟨"solids", ".",
    [⟨"src/lib.rs", [.module (.plain "plane")
        [.struct ⟨.plain "Disc", false, .named [columnDecl "r" "sql:\"r\" table:\"discs\""]⟩]],
        none⟩,
      ⟨"src/my-solids.rs",
        [.struct ⟨.plain "Cube", false, .named [columnDecl "a" "sql:\"a\" table:\"cubes\""]⟩,
          .struct ⟨.plain "Ball", false, .named [columnDecl "r" "sql:\"r\""]⟩], some "my-solids"⟩,
      ⟨"src/round.rs",
        [.struct ⟨.plain "Cone", false, .named [columnDecl "h" "sql:\"h\" table:\"cones\""]⟩,
          .struct ⟨.plain "Point", false, .positional⟩], some "round"⟩]⟩

theorem isRead_solids : ∀ file ∈ solids.files, file.IsRead := by
  refine List.forall_mem_cons.mpr ⟨⟨[.kw "mod", .kw "plane", .opening .brace] ++
    columnTokens "Disc" "r" "sql:\"r\" table:\"discs\"" ++ [.closing .brace], by cbv⟩, ?_⟩
  refine List.forall_mem_cons.mpr ⟨⟨columnTokens "Cube" "a" "sql:\"a\" table:\"cubes\"" ++
    columnTokens "Ball" "r" "sql:\"r\"", by cbv⟩, ?_⟩
  exact List.forall_mem_singleton.mpr ⟨columnTokens "Cone" "h" "sql:\"h\" table:\"cones\"" ++
    [.kw "struct", .kw "Point", .punct ';' false], by cbv⟩

/-- The missing table comes before the missing name of the file, and a scan for a struct in another
file meets neither. -/
theorem scan_result_candidates_solids :
    (∀ file ∈ solids.files, file.IsRead) ∧
    (∃ found : List (SourceFile × List PlacedStruct), found.map (·.1) = solids.files ∧
      (∀ p ∈ found, ∀ structs, p.1.Candidates none structs ↔ structs = p.2) ∧
      (found.flatMap fun p => p.1.failures p.2) =
        [.missingTable "Ball", .invalidModuleName "src/my-solids.rs"] ∧
      (solids.scan none).result = .error (.missingTable "Ball")) ∧
    ∃ found : List (SourceFile × List PlacedStruct), found.map (·.1) = solids.files ∧
      (∀ p ∈ found, ∀ structs, p.1.Candidates (some "Cone") structs ↔ structs = p.2) ∧
      (found.flatMap fun p => p.1.mappings p.2).map (·.qualifiedName) = ["round::Cone"] ∧
      (solids.scan (some "Cone")).result = .ok (found.flatMap fun p => p.1.mappings p.2) := by
  have hfound {wanted : Option String} {found : List (SourceFile × List PlacedStruct)}
      (hfiles : found.map (·.1) = solids.files)
      (hcand : ∀ p ∈ found, ∀ structs, p.1.Candidates wanted structs ↔ structs = p.2) :
      found = solids.files.map fun file =>
        (file, (placedStructs [] file.items).filter (·.named wanted)) := by
    rw [← hfiles, List.map_map]
    refine (List.map_id found).symm.trans (List.map_congr_left fun p hp => ?_)
    have hread := isRead_solids p.1 (hfiles ▸ List.mem_map_of_mem hp)
    exact Prod.ext rfl ((SourceFile.candidates_iff hread wanted p.2).mp ((hcand p hp p.2).mpr rfl))
  obtain ⟨found, hfiles, hcand, hresult⟩ := scan_result_candidates isRead_solids none
  obtain ⟨found', hfiles', hcand', hresult'⟩ := scan_result_candidates isRead_solids (some "Cone")
  have hfailures : (found.flatMap fun p => p.1.failures p.2) =
      [.missingTable "Ball", .invalidModuleName "src/my-solids.rs"] := by
    rw [hfound hfiles hcand]
    simp only [solids, List.map_cons, List.map_nil, placedStructs]
    decide +kernel
  have hmappings : (found'.flatMap fun p => p.1.mappings p.2).map (·.qualifiedName) =
      ["round::Cone"] := by
    rw [hfound hfiles' hcand']
    simp only [solids, List.map_cons, List.map_nil, placedStructs]
    decide +kernel
  have hnone : (found'.flatMap fun p => p.1.failures p.2) = [] := by
    rw [hfound hfiles' hcand']
    simp only [solids, List.map_cons, List.map_nil, placedStructs]
    decide +kernel
  rw [hfailures] at hresult
  rw [hnone] at hresult'
  exact ⟨isRead_solids, ⟨found, hfiles, hcand, hfailures, hresult⟩,
    found', hfiles', hcand', hmappings, hresult'⟩

end SourceSet

end TaggedRows
