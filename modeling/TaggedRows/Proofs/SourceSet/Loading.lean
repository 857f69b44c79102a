import TaggedRows.Proofs.FileTree.Parents
import TaggedRows.Proofs.SourceSet.Directory

/-!
# Three ways to a source set

- **Agreement** (`Agree`): two results are the same failure, or sets with the same files.
- **Listed files** (`AreFilesIn.ofFiles_eq_load`): files of one directory are loaded as they are
  listed.
- **Texts** (`agree_ofFiles_ofTexts`): their texts give the same set if there is a file to read.
- **Directories** (`AreSourcesOf.ofDirectory_eq_load`): a directory is loaded like the list of its
  source files, but with child modules even if there is only one (`AreSourcesOf.files_of_one`).
- **Together** (`loaders_agree`): the three ways agree, though the failure that there is nothing to
  read may be about two paths of one directory (`ofDirectory_and_ofFiles_fail_apart`).
-/

namespace TaggedRows.SourceSet

/-! ## Agreement -/

/-- Both results are the same failure, or sets with the same files. So all scans of them give the
same. -/
structure Agree (result result' : Except Failure SourceSet) : Prop where
  files : result.map files = result'.map files
  scan : ∀ wanted, result.map (scan · wanted) = result'.map (scan · wanted)

theorem agree_of_files {result result' : Except Failure SourceSet}
    (h : result.map files = result'.map files) : Agree result result' := by
  -- A scan looks at nothing else.
  have hscan : ∀ (wanted : Option String) (result : Except Failure SourceSet),
      result.map (scan · wanted) = (result.map files).map (scan.go wanted) := by
    intro wanted result
    cases result <;> rfl
  exact ⟨h, fun wanted => by rw [hscan, hscan, h]⟩

variable {tree : FileTree} {exclude : Option String} {several : Bool} {dir : Location}
  {name path : String} {paths names : List String} {sources : List (String × String)}

theorem isSkipped_none (tree : FileTree) (path : String) :
    isSkipped tree none path = holdsGenerated tree path :=
  Bool.false_or _

theorem files_load (h : kept tree exclude paths ≠ []) :
    (load tree name path paths exclude several).map files =
      (kept tree exclude paths).mapM (readFile tree several) := by
  rw [load_of_kept_ne_nil h]
  cases (kept tree exclude paths).mapM (readFile tree several) <;> rfl

/-- The files are source files in the directory, by whatever paths they are listed. -/
def AreFilesIn (tree : FileTree) (dir : Location) (paths : List String) : Prop :=
  ∀ p ∈ paths, FilePath.isSource p = true ∧
    ∃ name content, tree.find p = .ok (dir ++ [name], .file content)

theorem AreFilesIn.find_parentDir (h : AreFilesIn tree dir paths) (hwf : tree.WellFormed) :
    ∀ p ∈ paths, tree.find (FilePath.parentDir p) = .ok (dir, .directory) := by
  intro p hp
  obtain ⟨-, name, content, hfind⟩ := h p hp
  obtain ⟨dir', name', hleads⟩ := hwf.leads_of_file hfind
  obtain ⟨hloc, -⟩ := hleads.find_eq_ok.mp hfind
  obtain ⟨rfl, -⟩ := List.append_inj' hloc rfl
  exact hleads.find_parentDir

/-- The files are loaded as they are listed. -/
theorem AreFilesIn.ofFiles_eq_load (h : AreFilesIn tree dir paths) (hwf : tree.WellFormed)
    (hne : paths ≠ []) (exclude : Option String) :
    ∃ name, ∃ first ∈ paths.head?, ofFiles tree paths exclude =
      load tree name (FilePath.parentDir first) paths exclude (1 < paths.length) := by
  obtain ⟨first, others, rfl⟩ := List.exists_cons_of_ne_nil hne
  have hseveral : (!others.isEmpty) = decide (1 < (first :: others).length) := by
    cases others <;> simp
  have hdir : InOneDirectory tree (first :: others) := by
    intro p hp q hq
    rw [directoryKey_of_find (h.find_parentDir hwf p hp),
      directoryKey_of_find (h.find_parentDir hwf q hq)]
  exact ⟨_, first, rfl, hseveral ▸ SourceSet.ofFiles_eq_load (fun p hp => (h p hp).1) hdir⟩

/-! ## Files and texts -/

/-- The sources are paths of source files in the directory, with the texts that the files have. -/
def AreTextsIn (tree : FileTree) (dir : Location) (sources : List (String × String)) : Prop :=
  ∀ s ∈ sources, FilePath.isSource s.1 = true ∧
    ∃ name, tree.find s.1 = .ok (dir ++ [name], .file (.text s.2))

theorem AreTextsIn.areFilesIn (h : AreTextsIn tree dir sources) :
    AreFilesIn tree dir (sources.map Prod.fst) := by
  intro p hp
  obtain ⟨s, hs, rfl⟩ := List.mem_map.mp hp
  obtain ⟨hsource, name, hfind⟩ := h s hs
  exact ⟨hsource, name, _, hfind⟩

theorem AreTextsIn.readText (h : AreTextsIn tree dir sources) :
    ∀ s ∈ sources, tree.readText s.1 = .ok s.2 := by
  intro s hs
  obtain ⟨-, name, hfind⟩ := h s hs
  rw [FileTree.readText, hfind]

theorem AreTextsIn.kept_eq (h : AreTextsIn tree dir sources) :
    kept tree none (sources.map Prod.fst) =
      (sources.filter fun s => !isGenerated s.2).map Prod.fst := by
  rw [kept, List.filter_map]
  congr 1
  refine List.filter_congr fun s hs => ?_
  simp [isSkipped_none, holdsGenerated, h.readText s hs]

theorem AreTextsIn.mapM_readFile (h : AreTextsIn tree dir sources) (several : Bool) :
    (kept tree none (sources.map Prod.fst)).mapM (readFile tree several) =
      (sources.filter fun s => !isGenerated s.2).mapM fun s =>
        SourceFile.ofText several s.1 s.2 := by
  rw [h.kept_eq, List.mapM_map]
  refine mapM_congr fun s hs => ?_
  simp only [Function.comp, readFile, h.readText s (List.mem_filter.mp hs).1]

theorem ofTexts_eq (name : String) (sources : List (String × String)) :
    ofTexts name sources =
      ((sources.filter fun s => !isGenerated s.2).mapM fun s =>
        SourceFile.ofText (1 < sources.length) s.1 s.2).map fun files => ⟨name, ".", files⟩ := by
  rw [ofTexts]
  cases (sources.filter fun s => !isGenerated s.2).mapM fun s =>
    SourceFile.ofText (1 < sources.length) s.1 s.2 <;> rfl

/-- A text that cannot be parsed is the only reason for a failure. -/
theorem exists_parse_of_ofTexts {e : Failure} (h : ofTexts name sources = .error e) :
    ∃ s ∈ sources, isGenerated s.2 = false ∧ e = .parse s.1 := by
  rw [ofTexts_eq, map_eq_error] at h
  obtain ⟨s, hs, he⟩ := exists_of_mapM_eq_error h
  obtain ⟨hmem, hgen⟩ := List.mem_filter.mp hs
  refine ⟨s, hmem, by simpa using hgen, ?_⟩
  unfold SourceFile.ofText at he
  split at he
  · exact (Except.error.inj he).symm
  · cases he

/-- Files and their texts give the same set if one of them is to be read. -/
theorem agree_ofFiles_ofTexts (hwf : tree.WellFormed) (h : AreTextsIn tree dir sources)
    (hsome : ∃ s ∈ sources, isGenerated s.2 = false) (name : String) :
    Agree (ofFiles tree (sources.map Prod.fst) none) (ofTexts name sources) := by
  obtain ⟨s, hs, hgen⟩ := hsome
  have hkept : kept tree none (sources.map Prod.fst) ≠ [] := by
    rw [h.kept_eq]
    exact List.ne_nil_of_mem (List.mem_map_of_mem (List.mem_filter.mpr ⟨hs, by simp [hgen]⟩))
  have hne : sources.map Prod.fst ≠ [] := List.ne_nil_of_mem (List.mem_map_of_mem hs)
  obtain ⟨_, _, -, hload⟩ := h.areFilesIn.ofFiles_eq_load hwf hne none
  apply agree_of_files
  rw [hload, files_load hkept, h.mapM_readFile, ofTexts_eq, List.length_map]
  cases (sources.filter fun s => !isGenerated s.2).mapM fun s =>
    SourceFile.ofText (1 < sources.length) s.1 s.2 <;> rfl

/-- Where the generator wrote all files, the list has nothing to read, and the texts give a set
without files. -/
theorem ofFiles_of_generated (hwf : tree.WellFormed) (h : AreTextsIn tree dir sources)
    (hne : sources ≠ []) (hall : ∀ s ∈ sources, isGenerated s.2 = true) (name : String) :
    (∃ dirPath, ofFiles tree (sources.map Prod.fst) none = .error (.noSources dirPath)) ∧
    ofTexts name sources = .ok ⟨name, ".", []⟩ := by
  have hnone : (sources.filter fun s => !isGenerated s.2) = [] := by
    simpa using hall
  obtain ⟨_, first, -, hload⟩ := h.areFilesIn.ofFiles_eq_load hwf (by simpa using hne) none
  refine ⟨⟨FilePath.parentDir first, ?_⟩, by rw [ofTexts_eq, hnone]; rfl⟩
  rw [hload, load_of_kept_nil (by rw [h.kept_eq, hnone]; rfl)]

/-! ## Directories and files -/

/-- The names are those of the source files in the directory, in order. -/
structure AreSourcesOf (tree : FileTree) (dir : Location) (names : List String) : Prop where
  mem_iff : ∀ name, name ∈ names ↔
    (∃ content, tree.lookup? (dir ++ [name]) = some (.file content)) ∧ isSourceName name = true
  nodup : names.Nodup
  inOrder : names.Pairwise (· ≤ ·)

namespace AreSourcesOf

variable (h : AreSourcesOf tree dir names) (hwf : tree.WellFormed)
  (hd : tree.find path = .ok (dir, .directory))
include h hwf hd

theorem find {name : String} (hname : name ∈ names) :
    FilePath.isSource (FilePath.join path name) = true ∧ ∃ content,
      tree.find (FilePath.join path name) = .ok (dir ++ [name], .file content) := by
  obtain ⟨⟨content, hfile⟩, hsource⟩ := (h.mem_iff name).mp hname
  have hentry := hwf.isEntryName hfile
  have hpath := FileTree.ne_empty_of_resolve (FileTree.find_eq_ok.mp hd).1
  exact ⟨by rw [FilePath.isSource_join hpath hentry, hsource], content,
    (FileTree.leads_join hd hentry).find_eq_ok.mpr ⟨rfl, hfile⟩⟩

theorem areFilesIn : AreFilesIn tree dir (names.map (FilePath.join path)) := by
  intro p hp
  obtain ⟨name, hname, rfl⟩ := List.mem_map.mp hp
  obtain ⟨hsource, content, hfind⟩ := h.find hwf hd hname
  exact ⟨hsource, name, content, hfind⟩

/-- All files are skipped if the generator wrote them all. -/
theorem kept_eq_nil_iff : kept tree none (names.map (FilePath.join path)) = [] ↔
    ¬ ∃ name content, IsSource tree dir name content := by
  have hskipped : ∀ name ∈ names, ∀ content, tree.lookup? (dir ++ [name]) = some (.file content) →
      isSkipped tree none (FilePath.join path name) = content.isGenerated := by
    intro name hname content hfile
    obtain ⟨-, content', hfind⟩ := h.find hwf hd hname
    have hfile' := (FileTree.find_eq_ok.mp hfind).2
    rw [hfile] at hfile'
    cases hfile'
    rw [isSkipped_none, holdsGenerated_eq hfind]
  rw [kept, List.filter_eq_nil_iff, List.forall_mem_map]
  constructor
  · rintro hall ⟨name, content, hfile, hsource, hgen⟩
    have hname := (h.mem_iff name).mpr ⟨⟨content, hfile⟩, hsource⟩
    refine hall name hname ?_
    rw [hskipped name hname content hfile, hgen]
    rfl
  · intro hnone name hname hread
    obtain ⟨⟨content, hfile⟩, hsource⟩ := (h.mem_iff name).mp hname
    refine hnone ⟨name, content, hfile, hsource, ?_⟩
    rw [hskipped name hname content hfile] at hread
    simpa using hread

/-- A directory is loaded like the list of its source files. -/
theorem ofDirectory_eq_load : ofDirectory tree path exclude =
    load tree (directoryName tree path) path (names.map (FilePath.join path)) exclude true := by
  obtain ⟨listed, hlist, hnodup, hlisted⟩ := hwf.list_eq hd
  have hpath := FileTree.ne_empty_of_resolve (FileTree.find_eq_ok.mp hd).1
  have hnames : ((listed.mergeSort (fun a b => a ≤ b)).filter fun name =>
      tree.isFile (FilePath.join path name) && FilePath.isSource (FilePath.join path name)) =
        names := by
    refine eq_of_sorted (sorted_filter_mergeSort _ _) h.inOrder (nodup_filter_mergeSort hnodup _)
      h.nodup fun name => ?_
    rw [List.mem_filter, List.mem_mergeSort, hlisted, h.mem_iff]
    cases he : tree.lookup? (dir ++ [name]) with
    | none => simp
    | some entry =>
      have hname := hwf.isEntryName he
      have hfind := (FileTree.leads_join hd hname).find_eq_ok.mpr ⟨rfl, he⟩
      rw [FileTree.isFile, hfind, FilePath.isSource_join hpath hname]
      cases entry <;> simp
  simp only [ofDirectory, hlist, List.filter_map]
  rw [← hnames]
  rfl

/-- Several source files give the same set as their directory. -/
theorem agree_of_several (hsome : ∃ name content, IsSource tree dir name content)
    (hlen : 1 < names.length) :
    Agree (ofDirectory tree path none) (ofFiles tree (names.map (FilePath.join path)) none) := by
  have hkept : kept tree none (names.map (FilePath.join path)) ≠ [] := fun hnil =>
    (h.kept_eq_nil_iff hwf hd).mp hnil hsome
  have hne : names.map (FilePath.join path) ≠ [] := fun hnil => hkept (by rw [hnil]; rfl)
  obtain ⟨_, _, -, hload⟩ := (h.areFilesIn hwf hd).ofFiles_eq_load hwf hne none
  apply agree_of_files
  rw [h.ofDirectory_eq_load hwf hd, hload, files_load hkept, files_load hkept, List.length_map,
    decide_eq_true hlen]

/-- Where the generator wrote all source files, there is nothing to read, and the directory is
called by its path or by the parent of the first file. -/
theorem noSources {first : String} (hfirst : first ∈ names.head?)
    (hnone : ¬ ∃ name content, IsSource tree dir name content) :
    ofDirectory tree path none = .error (.noSources path) ∧
    ofFiles tree (names.map (FilePath.join path)) none =
      .error (.noSources (FilePath.parentDir (FilePath.join path first))) ∧
    tree.find (FilePath.parentDir (FilePath.join path first)) = .ok (dir, .directory) := by
  have hkept := (h.kept_eq_nil_iff hwf hd).mpr hnone
  have hfiles := h.areFilesIn hwf hd
  obtain ⟨others, rfl⟩ := List.head?_eq_some_iff.mp hfirst
  obtain ⟨_, p, hp, hload⟩ := hfiles.ofFiles_eq_load hwf (by simp) none
  obtain rfl : FilePath.join path first = p := Option.some.inj hp
  refine ⟨?_, ?_, hfiles.find_parentDir hwf _ (by simp)⟩
  · rw [h.ofDirectory_eq_load hwf hd, load_of_kept_nil hkept]
  · rw [hload, load_of_kept_nil hkept]

/-- The set of a directory with one source file is that of the file, but for its module. -/
theorem files_of_one {name : String} (hname : names = [name])
    (hsome : ∃ name content, IsSource tree dir name content) :
    ∃ result : Except Failure SourceFile,
      (ofDirectory tree path none).map files = (result.map fun file =>
        [{ file with module := childModule? (FilePath.join path name) }]) ∧
      (ofFiles tree [FilePath.join path name] none).map files =
        result.map fun file => [{ file with module := none }] := by
  subst hname
  have hkept : kept tree none [FilePath.join path name] = [FilePath.join path name] := by
    have hne : kept tree none [FilePath.join path name] ≠ [] := fun hnil =>
      (h.kept_eq_nil_iff hwf hd).mp hnil hsome
    simpa [kept] using hne
  obtain ⟨_, _, -, hload⟩ := (h.areFilesIn hwf hd).ofFiles_eq_load hwf (by simp) none
  rw [List.map_singleton] at hload
  refine ⟨readFile tree false (FilePath.join path name), ?_, ?_⟩
  · rw [h.ofDirectory_eq_load hwf hd, List.map_singleton, files_load (by simp [hkept]), hkept,
      mapM_readFile_singleton]
    rfl
  · rw [hload, files_load (by simp [hkept]), hkept, mapM_readFile_singleton]
    rfl

end AreSourcesOf

/-! ## The three ways -/

/-- The three ways agree.

Listed files of one directory and their texts give the same files or the same parse failure if one
of them is to be read. If the generator wrote them all, the list is a failure, and the texts give a
set without files.

A directory gives the files or the failure of its source files in the order of their names. A single
one is a child module only in the set of its directory. If the generator wrote all of them, both
ways find nothing to read: the one at the path of the directory, the other at the parent of the
first file, which leads there too. -/
theorem loaders_agree (hwf : tree.WellFormed) :
    (∀ dir sources name, AreTextsIn tree dir sources → sources ≠ [] →
      ((∃ s ∈ sources, isGenerated s.2 = false) →
        Agree (ofFiles tree (sources.map Prod.fst) none) (ofTexts name sources) ∧
        ∀ e, ofTexts name sources = .error e →
          ∃ s ∈ sources, isGenerated s.2 = false ∧ e = .parse s.1) ∧
      ((∀ s ∈ sources, isGenerated s.2 = true) →
        (∃ dirPath, ofFiles tree (sources.map Prod.fst) none = .error (.noSources dirPath)) ∧
        ofTexts name sources = .ok ⟨name, ".", []⟩)) ∧
    (∀ path dir names, tree.find path = .ok (dir, .directory) → AreSourcesOf tree dir names →
      ((∃ name content, IsSource tree dir name content) →
        (1 < names.length → Agree (ofDirectory tree path none)
          (ofFiles tree (names.map (FilePath.join path)) none)) ∧
        (∀ name, names = [name] → ∃ result : Except Failure SourceFile,
          (ofDirectory tree path none).map files = (result.map fun file =>
            [{ file with module := childModule? (FilePath.join path name) }]) ∧
          (ofFiles tree [FilePath.join path name] none).map files =
            result.map fun file => [{ file with module := none }])) ∧
      ((¬ ∃ name content, IsSource tree dir name content) → ∀ first ∈ names.head?,
        ofDirectory tree path none = .error (.noSources path) ∧
        ofFiles tree (names.map (FilePath.join path)) none =
          .error (.noSources (FilePath.parentDir (FilePath.join path first))) ∧
        tree.find (FilePath.parentDir (FilePath.join path first)) = .ok (dir, .directory))) := by
  constructor
  · intro dir sources name h hne
    refine ⟨fun hsome => ⟨agree_ofFiles_ofTexts hwf h hsome name, ?_⟩,
      fun hall => ofFiles_of_generated hwf h hne hall name⟩
    intro e he
    exact exists_parse_of_ofTexts he
  · intro path dir names hd h
    refine ⟨fun hsome => ⟨h.agree_of_several hwf hd hsome, fun name hname =>
      h.files_of_one hwf hd hname hsome⟩, fun hnone first hfirst => ?_⟩
    exact h.noSources hwf hd hfirst hnone

/-- A directory with two sources, and one with two files that the generator wrote. -/
def halfGenerated : FileTree :=
  ⟨[(["work"], .directory), (["work", "src"], .directory), (["work", "gen"], .directory),
    (["work", "src", "lib.rs"], .file (.text "")),
    (["work", "src", "models.rs"], .file (.text "")),
    (["work", "gen", "a.rs"], .file (.text generatedMark)),
    (["work", "gen", "b.rs"], .file (.text generatedMark))], ["work"]⟩

theorem wellFormed_halfGenerated : halfGenerated.WellFormed :=
  ⟨by decide +kernel, by decide +kernel⟩

/-- All files of a directory of `halfGenerated` have one text. -/
theorem areSourcesOf_halfGenerated (text : String) (hnodup : names.Nodup)
    (hinOrder : names.Pairwise (· ≤ ·))
    (hfiles : ∀ name ∈ names, halfGenerated.lookup? (dir ++ [name]) = some (.file (.text text)) ∧
      isSourceName name = true)
    (hall : ∀ e ∈ halfGenerated.entries, ∀ name, e.1 = dir ++ [name] → name ∈ names) :
    AreSourcesOf halfGenerated dir names := by
  refine ⟨fun name => ⟨fun hname => ?_, ?_⟩, hnodup, hinOrder⟩
  · obtain ⟨hfile, hsource⟩ := hfiles name hname
    exact ⟨⟨_, hfile⟩, hsource⟩
  · rintro ⟨⟨content, hfile⟩, -⟩
    exact hall _ (FileTree.mem_of_lookup? (by simp) hfile) name rfl

theorem areSourcesOf_src : AreSourcesOf halfGenerated ["work", "src"] ["lib.rs", "models.rs"] :=
  areSourcesOf_halfGenerated "" (by decide) (by decide +kernel) (by decide +kernel)
    (by simp [halfGenerated])

theorem areSourcesOf_gen : AreSourcesOf halfGenerated ["work", "gen"] ["a.rs", "b.rs"] :=
  areSourcesOf_halfGenerated generatedMark (by decide) (by decide +kernel) (by decide +kernel)
    (by simp [halfGenerated])

theorem find_gen : halfGenerated.find "gen/" = .ok (["work", "gen"], .directory) :=
  toOption_eq_some.mp (by decide +kernel)

theorem not_isSource_gen :
    ¬ ∃ name content, IsSource halfGenerated ["work", "gen"] name content := by
  rintro ⟨name, content, hfile, hsource, hgen⟩
  have hname := (areSourcesOf_gen.mem_iff name).mpr ⟨⟨content, hfile⟩, hsource⟩
  have htext : ∀ name ∈ ["a.rs", "b.rs"], halfGenerated.lookup? (["work", "gen"] ++ [name]) =
      some (.file (.text generatedMark)) := by decide +kernel
  rw [htext name hname] at hfile
  cases hfile
  exact absurd hgen (by decide +kernel)

/-- The sources agree with their texts in any order, and with their directory. Where the generator
wrote the files, they agree in that there is nothing to read. -/
theorem loaders_agree_halfGenerated : halfGenerated.WellFormed ∧
    Agree (ofFiles halfGenerated ["src/models.rs", "src/lib.rs"] none)
      (ofTexts "demo" [("src/models.rs", ""), ("src/lib.rs", "")]) ∧
    Agree (ofDirectory halfGenerated "src/" none)
      (ofFiles halfGenerated ["src/lib.rs", "src/models.rs"] none) ∧
    ofDirectory halfGenerated "gen/" none = .error (.noSources "gen/") ∧
    ofFiles halfGenerated ["gen/a.rs", "gen/b.rs"] none = .error (.noSources "gen") := by
  have hwf := wellFormed_halfGenerated
  obtain ⟨htexts, hdirectory⟩ := loaders_agree hwf
  have hsources : AreTextsIn halfGenerated ["work", "src"]
      [("src/models.rs", ""), ("src/lib.rs", "")] := by
    have hmodels : halfGenerated.find "src/models.rs" =
        .ok (["work", "src", "models.rs"], .file (.text "")) :=
      toOption_eq_some.mp (by decide +kernel)
    have hlib : halfGenerated.find "src/lib.rs" =
        .ok (["work", "src", "lib.rs"], .file (.text "")) :=
      toOption_eq_some.mp (by decide +kernel)
    refine List.forall_mem_cons.mpr ⟨⟨by decide +kernel, _, hmodels⟩, ?_⟩
    exact List.forall_mem_cons.mpr ⟨⟨by decide +kernel, _, hlib⟩, by simp⟩
  have hread : ∃ s ∈ [("src/models.rs", ""), ("src/lib.rs", "")], isGenerated s.2 = false :=
    ⟨("src/lib.rs", ""), by simp, by decide +kernel⟩
  have hsrc : halfGenerated.find "src/" = .ok (["work", "src"], .directory) :=
    toOption_eq_some.mp (by decide +kernel)
  have hsome : ∃ name content, IsSource halfGenerated ["work", "src"] name content :=
    ⟨"lib.rs", .text "", by decide +kernel, by decide +kernel, by decide +kernel⟩
  obtain ⟨hfilesAgree, -⟩ := (htexts _ _ "demo" hsources (by simp)).1 hread
  obtain ⟨hdirectoryAgrees, -⟩ := (hdirectory _ _ _ hsrc areSourcesOf_src).1 hsome
  obtain ⟨hgen, hgenFiles, -⟩ :=
    (hdirectory _ _ _ find_gen areSourcesOf_gen).2 not_isSource_gen "a.rs" rfl
  have hsrcPaths : ["lib.rs", "models.rs"].map (FilePath.join "src/") =
      ["src/lib.rs", "src/models.rs"] := by decide +kernel
  have hgenPaths : ["a.rs", "b.rs"].map (FilePath.join "gen/") = ["gen/a.rs", "gen/b.rs"] := by
    decide +kernel
  have hparent : FilePath.parentDir (FilePath.join "gen/" "a.rs") = "gen" := by decide +kernel
  rw [hsrcPaths] at hdirectoryAgrees
  rw [hgenPaths, hparent] at hgenFiles
  exact ⟨hwf, hfilesAgree, hdirectoryAgrees (by decide), hgen, hgenFiles⟩

/-- A directory and its files do not always fail alike. Where its path ends with a slash, there is
nothing to read in `gen/` by the one way and in `gen` by the other. -/
theorem ofDirectory_and_ofFiles_fail_apart : ¬ ∀ (tree : FileTree) (path : String)
    (dir : Location) (names : List String), tree.WellFormed →
    tree.find path = .ok (dir, .directory) → AreSourcesOf tree dir names → 1 < names.length →
    Agree (ofDirectory tree path none)
      (ofFiles tree (names.map (FilePath.join path)) none) := by
  intro h
  have hwf := wellFormed_halfGenerated
  obtain ⟨hdirectory, hfiles, -⟩ :=
    areSourcesOf_gen.noSources hwf find_gen rfl not_isSource_gen
  have herror := (h _ _ _ _ hwf find_gen areSourcesOf_gen (by decide)).files
  rw [hdirectory, hfiles] at herror
  have hpaths : "gen/" = FilePath.parentDir (FilePath.join "gen/" "a.rs") := by
    simpa [Except.map] using herror
  exact absurd hpaths (by decide +kernel)

end TaggedRows.SourceSet
