import TaggedRows.Configuration.Basic
import TaggedRows.Proofs.FileTree.Parents
import TaggedRows.Proofs.SourceSet.Directory

/-!
# Where a unit is written by default

- **Sets** (`ofDirectory_liesIn`, `ofFiles_liesIn`): the files of a set lie in its directory. That
  of listed files is the one of the first source among them.
- **Destinations** (`outputPath_liesIn_iff`): the default destination lies there too for a single
  directory, and for listed files exactly if the first of them does, source or not. A file that is
  ignored may come first and take the destination elsewhere (`outputPath_leaves_sources`).
-/

namespace TaggedRows

namespace FileTree

variable {tree : FileTree} {path : String}

/-- The path leads to a name in the directory. -/
def LiesIn (tree : FileTree) (path : String) (dir : Location) : Prop :=
  ∃ name, Leads tree path dir name

theorem exists_find_of_readText {text : String} (h : tree.readText path = .ok text) :
    ∃ loc, tree.find path = .ok (loc, .file (.text text)) := by
  unfold readText at h
  split at h
  · cases h
  · cases h
  · next loc _ hfind =>
    cases h
    exact ⟨loc, hfind⟩
  · cases h

end FileTree

namespace SourceSet

open FileTree

variable {tree : FileTree} {set : SourceSet} {dir : Location} {several : Bool}
  {path name dirPath : String} {paths : List String} {exclude : Option String}

/-! ## Sets -/

theorem path_of_readFile {file : SourceFile} (h : readFile tree several path = .ok file) :
    file.path = path ∧ ∃ text, tree.readText path = .ok text := by
  unfold readFile at h
  split at h
  · cases h
  · next text htext =>
    refine ⟨?_, text, htext⟩
    unfold SourceFile.ofText at h
    split at h
    · cases h
    · cases h
      rfl

/-- A loaded set has files, all of them from the list. -/
theorem files_of_load (h : load tree name dirPath paths exclude several = .ok set) :
    set.dir = dirPath ∧ set.files ≠ [] ∧ ∀ file ∈ set.files, file.path ∈ paths ∧
      ∃ loc text, tree.find file.path = .ok (loc, .file (.text text)) := by
  rw [load_eq_readFiles] at h
  obtain ⟨files, hread, h⟩ := bind_eq_ok.mp h
  split at h
  · cases h
  · next hne =>
    cases h
    refine ⟨rfl, by simpa using hne, fun file hfile => ?_⟩
    obtain ⟨path, hpath, hfile⟩ := exists_of_mem_mapM hread hfile
    obtain ⟨rfl, text, htext⟩ := path_of_readFile hfile
    obtain ⟨loc, hfind⟩ := exists_find_of_readText htext
    exact ⟨(List.mem_filter.mp hpath).1, loc, text, hfind⟩

theorem resolve_of_directoryKey (h : directoryKey tree dirPath = .inl dir) :
    tree.resolve dirPath = .ok dir := by
  unfold directoryKey canonical? at h
  split at h
  · next hloc =>
    cases h
    exact toOption_eq_some.mp hloc
  · cases h

theorem ofDirectory_liesIn (hwf : tree.WellFormed)
    (hd : tree.find dirPath = .ok (dir, .directory))
    (h : ofDirectory tree dirPath exclude = .ok set) :
    set.dir = dirPath ∧ ∀ file ∈ set.files, LiesIn tree file.path dir := by
  obtain ⟨names, hlist, -, hnames⟩ := hwf.list_eq hd
  rw [ofDirectory, hlist] at h
  obtain ⟨hdir, -, hfiles⟩ := files_of_load h
  refine ⟨hdir, fun file hfile => ?_⟩
  have hpath := (List.mem_filter.mp (hfiles file hfile).1).1
  obtain ⟨name, hname, hjoin⟩ := List.mem_map.mp hpath
  rw [List.mem_mergeSort, hnames] at hname
  obtain ⟨entry, hentry⟩ := Option.isSome_iff_exists.mp hname
  exact ⟨name, hjoin ▸ leads_join hd (hwf.isEntryName hentry)⟩

/-- All listed files of a set lie in the directory of the first source. -/
theorem ofFiles_liesIn (hwf : tree.WellFormed) (h : ofFiles tree paths exclude = .ok set) :
    ∃ first others, paths.filter FilePath.isSource = first :: others ∧
      set.dir = FilePath.parentDir first ∧ ∃ dir, tree.find set.dir = .ok (dir, .directory) ∧
        ∀ file ∈ set.files, LiesIn tree file.path dir := by
  unfold ofFiles at h
  split at h
  · cases h
  next first others hsources =>
  dsimp only at h
  split at h
  · cases h
  next hone =>
  obtain ⟨hdir, hne, hfiles⟩ := files_of_load h
  have hkey : ∀ p ∈ first :: others, directoryKey tree (FilePath.parentDir p) =
      directoryKey tree (FilePath.parentDir first) := by
    intro p hp
    rcases List.mem_cons.mp hp with rfl | hp
    · rfl
    · simpa using List.find?_eq_none.mp hone p hp
  refine ⟨first, others, hsources, hdir, ?_⟩
  -- Every file has a directory, and it is that of the first one.
  have hparent : ∀ file ∈ set.files, ∃ dir, LiesIn tree file.path dir ∧
      directoryKey tree set.dir = .inl dir ∧ tree.lookup? dir = some .directory := by
    intro file hfile
    obtain ⟨hmem, loc, text, hfind⟩ := hfiles file hfile
    obtain ⟨dir, name, hleads⟩ := hwf.leads_of_file hfind
    have hfound := hleads.find_parentDir
    refine ⟨dir, ⟨name, hleads⟩, ?_, (find_eq_ok.mp hfound).2⟩
    rw [hdir, ← hkey _ hmem, directoryKey_of_find hfound]
  obtain ⟨file, hfile⟩ := List.exists_mem_of_ne_nil _ hne
  obtain ⟨dir, -, hdirKey, hlookup⟩ := hparent file hfile
  refine ⟨dir, find_eq_ok.mpr ⟨resolve_of_directoryKey hdirKey, hlookup⟩, fun file hfile => ?_⟩
  obtain ⟨dir', hlies, hdirKey', -⟩ := hparent file hfile
  cases hdirKey.symm.trans hdirKey'
  exact hlies

end SourceSet

namespace GeneratedUnit

/-- The default name fits a directory if the first type has no slash in its name. -/
theorem isEntryName_defaultFileName {types : List String}
    (h : '/' ∉ (defaultFileName types).toList) : IsEntryName (defaultFileName types) := by
  have hprefix : ∃ rest, (defaultFileName types).toList = "db_generated".toList ++ rest := by
    unfold defaultFileName
    split
    · exact ⟨".rs".toList, rfl⟩
    · next first _ _ =>
      exact ⟨'_' :: (Text.toLowercase first).toList ++ ".rs".toList, by simp⟩
  obtain ⟨rest, hrest⟩ := hprefix
  refine ⟨?_, ?_, ?_, h⟩ <;> rintro he <;> simp [he] at hrest

end GeneratedUnit

namespace Configuration

open FileTree

variable {tree : FileTree} {config : Configuration} {set : SourceSet} {dir : Location}

/-! ## Destinations -/

theorem find_of_singleDirectory? {path : String}
    (h : config.singleDirectory? tree = some path) :
    ∃ dir, tree.find path = .ok (dir, .directory) := by
  unfold singleDirectory? at h
  split at h
  · next only _ =>
    split at h
    · next hd =>
      cases h
      unfold isDirectory at hd
      split at hd
      · next dir hfind => exact ⟨dir, hfind⟩
      · cases hd
    · cases h
  · cases h

theorem inputList_ne_nil (config : Configuration) : config.inputList ≠ [] := by
  unfold inputList
  split
  · simp
  · next hne => exact hne

/-- The default destination is in the source directory. -/
theorem outputPath_liesIn (hout : config.output = none)
    (hname : '/' ∉ (GeneratedUnit.defaultFileName config.types).toList)
    (hsource : config.sourceDirectory tree ≠ "") :
    LiesIn tree (config.outputPath tree) dir ↔
      tree.find (config.sourceDirectory tree) = .ok (dir, .directory) := by
  have hpath : config.outputPath tree = FilePath.join (config.sourceDirectory tree)
      (GeneratedUnit.defaultFileName config.types) := by
    rw [outputPath, hout]
    rfl
  have hentry := GeneratedUnit.isEntryName_defaultFileName hname
  rw [hpath]
  constructor
  · rintro ⟨name, hleads⟩
    exact ((leads_join_iff hsource hentry).mp hleads).1
  · intro h
    exact ⟨_, leads_join h hentry⟩

/-- The files of a run lie in the directory of its set. The default destination does so as well if
the run is about a single directory; otherwise, exactly if the first input does, be it a source
that is read or a file that is ignored. -/
theorem outputPath_liesIn_iff (hwf : tree.WellFormed) (hout : config.output = none)
    (hname : '/' ∉ (GeneratedUnit.defaultFileName config.types).toList)
    (h : config.sources tree = .ok set) :
    ∃ dir, tree.find set.dir = .ok (dir, .directory) ∧
      (∀ file ∈ set.files, LiesIn tree file.path dir) ∧
      (LiesIn tree (config.outputPath tree) dir ↔
        (config.singleDirectory? tree).isSome ∨ ∃ first ∈ config.inputList.head?,
          tree.find (FilePath.parentDir first) = .ok (dir, .directory)) ∧
      ((∃ first ∈ config.inputList.head?, FilePath.isSource first = true) →
        LiesIn tree (config.outputPath tree) dir) := by
  rw [sources] at h
  cases hs : config.singleDirectory? tree with
  | some path =>
    rw [hs] at h
    obtain ⟨dir, hd⟩ := find_of_singleDirectory? hs
    obtain ⟨hdir, hfiles⟩ := SourceSet.ofDirectory_liesIn hwf hd h
    have hsource : config.sourceDirectory tree = path := by
      rw [sourceDirectory, hs]
    have hlies : LiesIn tree (config.outputPath tree) dir := by
      rw [outputPath_liesIn hout hname (hsource ▸ ne_empty_of_resolve (find_eq_ok.mp hd).1),
        hsource]
      exact hd
    exact ⟨dir, hdir ▸ hd, hfiles, iff_of_true hlies (.inl rfl), fun _ => hlies⟩
  | none =>
    rw [hs] at h
    obtain ⟨first, others, hsources, hdir, dir, hd, hfiles⟩ := SourceSet.ofFiles_liesIn hwf h
    obtain ⟨input, inputs, hinputs⟩ := List.exists_cons_of_ne_nil config.inputList_ne_nil
    have hsource : config.sourceDirectory tree = FilePath.parentDir input := by
      rw [sourceDirectory, hs, hinputs]
      rfl
    have hlies : LiesIn tree (config.outputPath tree) dir ↔
        tree.find (FilePath.parentDir input) = .ok (dir, .directory) := by
      rw [outputPath_liesIn hout hname (hsource ▸ FilePath.parentDir_ne_empty input), hsource]
    refine ⟨dir, hd, hfiles, ?_, ?_⟩
    · simp [hlies, hinputs]
    · rw [hinputs]
      rintro ⟨_, hfirst, hinput⟩
      obtain rfl := Option.some.inj hfirst
      rw [hinputs, List.filter_cons_of_pos hinput] at hsources
      rw [hlies, (List.cons.inj hsources).1, ← hdir]
      exact hd

/-- Sources in a directory below that of another file. -/
def nested : FileTree :=
  ⟨[(["work"], .directory), (["work", "README.md"], .file (.text "")),
    (["work", "src"], .directory), (["work", "src", "models.rs"], .file (.text ""))], ["work"]⟩

/-- A run about the given files, with the default destination. -/
def ofInputs (inputs : List String) : Configuration :=
  ⟨inputs, [], none, RuntimePath.defaultText⟩

theorem outputPath_liesIn_iff_nested : nested.WellFormed ∧
    (ofInputs ["src/models.rs", "README.md"]).output = none ∧
    '/' ∉ (GeneratedUnit.defaultFileName []).toList ∧
    ∃ set, (ofInputs ["src/models.rs", "README.md"]).sources nested = .ok set ∧
      LiesIn nested ((ofInputs ["src/models.rs", "README.md"]).outputPath nested)
        ["work", "src"] := by
  have hwf : nested.WellFormed := ⟨by decide +kernel, by decide +kernel⟩
  have hslash : '/' ∉ (GeneratedUnit.defaultFileName []).toList := by decide +kernel
  have hok : ((ofInputs ["src/models.rs", "README.md"]).sources nested).toOption.map
      SourceSet.dir = some "src" := by decide +kernel
  obtain ⟨set, hset, hdir⟩ := Option.map_eq_some_iff.mp hok
  rw [toOption_eq_some] at hset
  have hout : (ofInputs ["src/models.rs", "README.md"]).output = none := rfl
  obtain ⟨dir, hd, -, -, hlies⟩ := outputPath_liesIn_iff hwf hout hslash hset
  have hsrc : nested.find "src" = .ok (["work", "src"], .directory) :=
    toOption_eq_some.mp (by decide +kernel)
  rw [hdir, hsrc] at hd
  cases hd
  exact ⟨hwf, hout, hslash, set, hset, hlies ⟨_, rfl, by decide +kernel⟩⟩

/-- The default destination does not lie with the sources for all lists of inputs: a file that
holds no source text is ignored, but its directory is used if it comes first. -/
theorem outputPath_leaves_sources : ¬ ∀ (tree : FileTree) (config : Configuration)
    (set : SourceSet) (dir : Location), tree.WellFormed → config.output = none →
    config.sources tree = .ok set → tree.find set.dir = .ok (dir, .directory) →
      LiesIn tree (config.outputPath tree) dir := by
  intro h
  have hwf : nested.WellFormed := ⟨by decide +kernel, by decide +kernel⟩
  have hok : ((ofInputs ["README.md", "src/models.rs"]).sources nested).toOption.map
      SourceSet.dir = some "src" := by decide +kernel
  obtain ⟨set, hset, hdir⟩ := Option.map_eq_some_iff.mp hok
  rw [toOption_eq_some] at hset
  have hsrc : nested.find "src" = .ok (["work", "src"], .directory) :=
    toOption_eq_some.mp (by decide +kernel)
  obtain ⟨name, hleads⟩ := h nested _ set ["work", "src"] hwf rfl hset (hdir ▸ hsrc)
  have hparent : FilePath.parentDir
      ((ofInputs ["README.md", "src/models.rs"]).outputPath nested) = "." := by decide +kernel
  have hcurrent : nested.find "." = .ok (["work"], .directory) :=
    toOption_eq_some.mp (by decide +kernel)
  have hfound := hleads.find_parentDir
  rw [hparent, hcurrent] at hfound
  cases hfound

end Configuration

end TaggedRows
