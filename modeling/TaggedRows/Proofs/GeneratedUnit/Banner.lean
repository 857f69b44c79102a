import TaggedRows.GeneratedUnit
import TaggedRows.Proofs.Attempts
import TaggedRows.Proofs.RuntimePath.Arguments
import TaggedRows.Proofs.SourceSet.Scan

/-!
# The first line of a unit

- **Lines** (`isMarked_banner`): the first line of a banner begins with the mark of generated files
  and ends where the banner says, whatever the invocation and the name of the module are.
- **Units** (`isMarked_of_generate`): so every unit can be told from sources.
-/

namespace TaggedRows

namespace GeneratedUnit

/-! ## Lines -/

/-- The text has no line breaks. -/
def IsOneLine (text : String) : Prop := ∀ c ∈ text.toList, c ≠ '\n' ∧ c ≠ '\r'

instance (text : String) : Decidable (IsOneLine text) :=
  List.decidableBAll _ text.toList

theorem isOneLine_append {s t : String} : IsOneLine (s ++ t) ↔ IsOneLine s ∧ IsOneLine t := by
  rw [IsOneLine, String.toList_append, List.forall_mem_append]
  rfl

theorem isOneLine_singleLine (text : String) : IsOneLine (singleLine text) := by
  intro c hc
  rw [singleLine, String.toList_ofList, List.mem_map] at hc
  obtain ⟨d, -, rfl⟩ := hc
  split
  · decide
  · next h => simpa [not_or, and_comm] using h

/-- The first line of the text begins with the mark of generated files. -/
def IsMarked (source : String) : Prop :=
  ∃ line rest, source = generatedMark ++ line ++ "\n" ++ rest ∧ IsOneLine (generatedMark ++ line)

theorem IsMarked.isGenerated {source : String} (h : IsMarked source) :
    isGenerated source = true := by
  obtain ⟨line, rest, rfl, -⟩ := h
  rw [TaggedRows.isGenerated, List.isPrefixOf_iff_prefix]
  simp [String.toList_append]

/-- The line breaks of an invocation do not end the first line. -/
theorem isMarked_banner (invocation moduleName code : String) :
    IsMarked (banner invocation moduleName ++ code) := by
  refine ⟨(if invocation = "" then "" else " " ++ singleLine invocation) ++ "'; DO NOT EDIT",
    "// module: " ++ singleLine moduleName ++ "\n\n" ++ code, ?_, ?_⟩
  · rw [banner, show "'; DO NOT EDIT\n// module: " = "'; DO NOT EDIT" ++ "\n" ++ "// module: " from
      rfl]
    simp only [String.append_assoc]
  · rw [isOneLine_append, isOneLine_append]
    refine ⟨by decide, ?_, by decide⟩
    split
    · decide
    · exact isOneLine_append.mpr ⟨by decide, isOneLine_singleLine invocation⟩

/-! ## Units -/

/-- Mappings always make a unit. -/
theorem ofMappings_eq (runtime : RuntimePath) (invocation moduleName : String)
    (mappings : List RowMapping) : ∃ unit : GeneratedUnit,
      (ofMappings runtime invocation moduleName mappings).result = .ok unit ∧
        IsMarked unit.source := by
  rw [ofMappings]
  split
  · exact ⟨_, rfl, isMarked_banner invocation moduleName _⟩
  · exact ⟨_, rfl, isMarked_banner invocation moduleName _⟩

theorem isMarked_of_generate {set : SourceSet} {runtimePath invocation : String}
    {types : List String} {unit : GeneratedUnit}
    (h : (generate set runtimePath invocation types).result = .ok unit) : IsMarked unit.source := by
  rw [generate, Report.result_bind] at h
  obtain ⟨runtime, -, h⟩ := bind_eq_ok.mp h
  rw [Report.result_bind] at h
  obtain ⟨mappings, -, h⟩ := bind_eq_ok.mp h
  obtain ⟨unit', hu, hm⟩ := ofMappings_eq runtime invocation set.name mappings
  rw [hu] at h
  cases h
  exact hm

/-- Files without items make a unit without blocks. -/
theorem generate_of_items_eq_nil {set : SourceSet} (h : ∀ file ∈ set.files, file.items = [])
    (invocation : String) : ∃ unit : GeneratedUnit,
      (generate set RuntimePath.defaultText invocation []).result = .ok unit := by
  have hfailures : (set.files.flatMap fun file =>
      file.failures ((placedStructs [] file.items).filter (·.named none))) = [] := by
    rw [List.flatMap_eq_nil_iff]
    intro file hf
    simp [h file hf, placedStructs, SourceFile.failures]
  have hscan := SourceSet.result_scan_go none set.files
  simp only [hfailures, firstOr] at hscan
  obtain ⟨unit, hunit, -⟩ := ofMappings_eq RuntimePath.default invocation set.name
    (set.files.flatMap fun file =>
      file.mappings ((placedStructs [] file.items).filter (·.named none)))
  refine ⟨unit, ?_⟩
  rw [generate, readRuntimePath, RuntimePath.parse?_defaultText, Report.result_bind]
  change ((set.scan none >>= ofMappings RuntimePath.default invocation set.name)).result = .ok unit
  rw [Report.result_bind, SourceSet.scan, hscan]
  exact hunit

end GeneratedUnit

end TaggedRows
