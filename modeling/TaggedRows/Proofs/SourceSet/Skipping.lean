import TaggedRows.SourceSet
import TaggedRows.Proofs.Attempts

/-!
# Files that a source set leaves out

- **Skipped files** (`isSkipped`): the destination of the run, and what the generator wrote.
- **Loading** (`load_eq_readFiles`): a set has the files that are not skipped, each read by
  `readFile`; the skipped ones are as good as not listed (`load_filter`).
- **Listed files** (`ofFiles_eq`): the name of the set and whether files are child modules come
  from the list as it is given, skipped files included. So a set is the same without the skipped
  files exactly when neither of the two changes (`ofFiles_kept_iff`), and a skipped file may
  change it (`ofFiles_changed_by_skipped`).
-/

namespace TaggedRows.SourceSet

variable {tree : FileTree} {exclude : Option String} {several : Bool} {name dir path : String}
  {paths : List String}

/-! ## Skipped files -/

/-- The path leads to the destination of the run. -/
def isDestination (tree : FileTree) (exclude : Option String) (path : String) : Bool :=
  (exclude.bind (canonical? tree)).isSome &&
    decide (canonical? tree path = exclude.bind (canonical? tree))

/-- The path leads to a text that the generator wrote. -/
def holdsGenerated (tree : FileTree) (path : String) : Bool :=
  match tree.readText path with
  | .ok text => isGenerated text
  | .error _ => false

/-- The file is not to be read. -/
def isSkipped (tree : FileTree) (exclude : Option String) (path : String) : Bool :=
  isDestination tree exclude path || holdsGenerated tree path

/-- The listed files that are to be read. -/
def kept (tree : FileTree) (exclude : Option String) (paths : List String) : List String :=
  paths.filter fun path => !isSkipped tree exclude path

/-- Reads a file of a set, whether or not it is to be skipped. -/
def readFile (tree : FileTree) (several : Bool) (path : String) : Except Failure SourceFile :=
  match tree.readText path with
  | .error cause => .error (.io path cause)
  | .ok text => SourceFile.ofText several path text

theorem loadFile_of_skipped (h : isSkipped tree exclude path = true) :
    loadFile tree (exclude.bind (canonical? tree)) several path = .ok none := by
  unfold loadFile
  split
  · rfl
  · next hd =>
    have hg : holdsGenerated tree path = true := by
      rw [isSkipped, isDestination, Bool.or_eq_true] at h
      exact h.resolve_left hd
    unfold holdsGenerated at hg
    split at hg
    · next text ht => simp only [ht, hg, if_true]
    · cases hg

theorem loadFile_of_kept (h : isSkipped tree exclude path = false) :
    loadFile tree (exclude.bind (canonical? tree)) several path =
      (readFile tree several path).map some := by
  rw [isSkipped, Bool.or_eq_false_iff] at h
  obtain ⟨hd, hg⟩ := h
  unfold loadFile readFile
  rw [isDestination] at hd
  rw [hd]
  unfold holdsGenerated at hg
  cases ht : tree.readText path with
  | error cause => rfl
  | ok text =>
    rw [ht] at hg
    simp only [hg]
    rfl

/-! ## Loading -/

theorem load_eq (tree : FileTree) (name dir : String) (paths : List String)
    (exclude : Option String) (several : Bool) :
    load tree name dir paths exclude several =
      ((paths.mapM (loadFile tree (exclude.bind (canonical? tree)) several)).map
        (List.filterMap id)).bind fun files =>
          if files.isEmpty then .error (.noSources dir) else .ok ⟨name, dir, files⟩ := by
  simp only [load]
  cases paths.mapM (loadFile tree (exclude.bind (canonical? tree)) several) <;> rfl

/-- Skipped files are as good as not listed. -/
theorem load_filter : load tree name dir paths exclude several =
    load tree name dir (kept tree exclude paths) exclude several := by
  rw [load_eq, load_eq, kept, gather_filter fun path => !isSkipped tree exclude path]
  intro path _ hk
  exact loadFile_of_skipped (by simpa using hk)

/-- A set has the files that are not skipped, in the order of the list. -/
theorem load_eq_readFiles : load tree name dir paths exclude several =
    ((kept tree exclude paths).mapM (readFile tree several)).bind fun files =>
      if files.isEmpty then .error (.noSources dir) else .ok ⟨name, dir, files⟩ := by
  rw [load_filter, load_eq, gather_map_some]
  intro path hp
  exact loadFile_of_kept (by simpa using (List.mem_filter.mp hp).2)

theorem load_of_kept_ne_nil (h : kept tree exclude paths ≠ []) :
    load tree name dir paths exclude several =
      ((kept tree exclude paths).mapM (readFile tree several)).map fun files =>
        ⟨name, dir, files⟩ := by
  rw [load_eq_readFiles]
  obtain ⟨first, others, he⟩ := List.exists_cons_of_ne_nil h
  rw [he]
  cases hm : (first :: others).mapM (readFile tree several) with
  | error e => rfl
  | ok files =>
    obtain ⟨file, rest, -, -, rfl⟩ := mapM_cons_eq_ok.mp hm
    rfl

theorem load_of_kept_nil (h : kept tree exclude paths = []) :
    load tree name dir paths exclude several = .error (.noSources dir) := by
  rw [load_eq_readFiles, h]
  rfl

theorem kept_kept (tree : FileTree) (exclude : Option String) (paths : List String) :
    kept tree exclude (kept tree exclude paths) = kept tree exclude paths := by
  simp [kept, List.filter_filter]

/-! ## Listed files -/

/-- The paths name files of one directory. -/
def InOneDirectory (tree : FileTree) (paths : List String) : Prop :=
  ∀ p ∈ paths, ∀ q ∈ paths,
    directoryKey tree (FilePath.parentDir p) = directoryKey tree (FilePath.parentDir q)

/-- The name of the module that a file forms among several, if it forms one. -/
def childModule? (path : String) : Option String :=
  (FilePath.stem? path).filter fun stem => stem ∉ ["lib", "main", "mod"]

/-- Only the module of a file depends on whether there are several. -/
theorem readFile_eq (tree : FileTree) (several : Bool) (path : String) :
    readFile tree several path = (readFile tree false path).map fun file =>
      { file with module := if several then childModule? path else none } := by
  unfold readFile
  cases tree.readText path with
  | error cause => rfl
  | ok text =>
    simp only [SourceFile.ofText]
    cases Source.parseFile? text <;> rfl

theorem mapM_readFile_singleton (tree : FileTree) (several : Bool) (path : String) :
    [path].mapM (readFile tree several) = (readFile tree false path).map fun file =>
      [{ file with module := if several then childModule? path else none }] := by
  rw [List.mapM_cons, readFile_eq]
  cases readFile tree false path <;> rfl

/-- Listed source files of one directory are loaded as they are listed. The set is named by the
first file of the list, and the files are child modules if the list has several. -/
theorem ofFiles_eq_load {first : String} {others : List String}
    (hsource : ∀ p ∈ first :: others, FilePath.isSource p = true)
    (hdir : InOneDirectory tree (first :: others)) :
    ofFiles tree (first :: others) exclude =
      load tree ((FilePath.stem? first).getD (directoryName tree (FilePath.parentDir first)))
        (FilePath.parentDir first) (first :: others) exclude (!others.isEmpty) := by
  have hf : (first :: others).filter FilePath.isSource = first :: others :=
    List.filter_eq_self.mpr hsource
  have hone : (others.find? fun other =>
      directoryKey tree (FilePath.parentDir other) ≠
        directoryKey tree (FilePath.parentDir first)) = none := by
    rw [List.find?_eq_none]
    intro other ho
    simpa using hdir other (List.mem_cons_of_mem first ho) first List.mem_cons_self
  simp only [ofFiles, hf, hone]

/-- The set of listed source files of one directory, some of which are to be read. -/
theorem ofFiles_eq {first : String} {others : List String}
    (hsource : ∀ p ∈ first :: others, FilePath.isSource p = true)
    (hdir : InOneDirectory tree (first :: others)) (hk : kept tree exclude (first :: others) ≠ []) :
    ofFiles tree (first :: others) exclude =
      ((kept tree exclude (first :: others)).mapM (readFile tree (!others.isEmpty))).map
        fun files =>
          ⟨(FilePath.stem? first).getD (directoryName tree (FilePath.parentDir first)),
            FilePath.parentDir first, files⟩ := by
  rw [ofFiles_eq_load hsource hdir, load_of_kept_ne_nil hk]

theorem stem?_eq_some (h : FilePath.isSource path = true) :
    ∃ stem, FilePath.stem? path = some stem := by
  cases hn : FilePath.fileName? path with
  | none =>
    rw [FilePath.isSource, FilePath.extension?, hn, Option.bind_none] at h
    cases h
  | some name => exact ⟨_, by rw [FilePath.stem?, hn]; rfl⟩

/-- The name of a set and its files with their modules: all that units are generated from. -/
def content (set : SourceSet) : String × List SourceFile := (set.name, set.files)

/-- The skipped files may be left out of a list exactly when the first file still has the same
stem, and either several files are left, or there was only one, or the one that is left forms no
child module. Where a file cannot be read, they make no difference. -/
theorem ofFiles_kept_iff {first firstKept : String} {others othersKept : List String}
    (hsource : ∀ p ∈ first :: others, FilePath.isSource p = true)
    (hdir : InOneDirectory tree (first :: others))
    (hk : kept tree exclude (first :: others) = firstKept :: othersKept) :
    (ofFiles tree (first :: others) exclude).map content =
        (ofFiles tree (firstKept :: othersKept) exclude).map content ↔
      (∃ e, ofFiles tree (firstKept :: othersKept) exclude = .error e) ∨
      (FilePath.stem? first = FilePath.stem? firstKept ∧
        (others = [] ∨ othersKept ≠ [] ∨ childModule? firstKept = none)) := by
  have hsub : ∀ p ∈ firstKept :: othersKept, p ∈ first :: others := fun p hp => by
    rw [← hk] at hp
    exact (List.mem_filter.mp hp).1
  have hkk : kept tree exclude (firstKept :: othersKept) = firstKept :: othersKept := by
    rw [← hk, kept_kept]
  obtain ⟨stem, hstem⟩ := stem?_eq_some (hsource first List.mem_cons_self)
  obtain ⟨stemKept, hstemKept⟩ := stem?_eq_some (hsource _ (hsub firstKept List.mem_cons_self))
  rw [ofFiles_eq hsource hdir (by simp [hk]), ofFiles_eq (fun p hp => hsource p (hsub p hp))
    (fun p hp q hq => hdir p (hsub p hp) q (hsub q hq)) (by simp [hkk]), hk, hkk, hstem, hstemKept]
  simp only [Option.getD_some, Option.some.injEq]
  by_cases hs : (!others.isEmpty) = !othersKept.isEmpty
  · -- Both lists have several files, or both have one.
    have hlist : others = [] ∨ othersKept ≠ [] ∨ childModule? firstKept = none := by
      cases others with
      | nil => exact .inl rfl
      | cons other others => exact .inr (.inl (by simpa using hs))
    rw [hs]
    cases (firstKept :: othersKept).mapM (readFile tree (!othersKept.isEmpty)) with
    | error e => simp [Except.map]
    | ok files => simp [Except.map, content, hlist]
  · -- Several files are listed and one of them is read.
    have hlen : (firstKept :: othersKept).length ≤ (first :: others).length := by
      rw [← hk]
      exact List.length_filter_le _ _
    obtain ⟨hothers, rfl⟩ : others ≠ [] ∧ othersKept = [] := by
      cases othersKept with
      | nil => exact ⟨fun he => hs (by rw [he]), rfl⟩
      | cons p ps =>
        cases others with
        | nil => simp at hlen
        | cons q qs => exact absurd rfl hs
    have ht : (!others.isEmpty) = true := by simpa using hothers
    rw [mapM_readFile_singleton, mapM_readFile_singleton, ht]
    cases readFile tree false firstKept with
    | error e => simp [Except.map]
    | ok file => simp [Except.map, content, hothers]

/-- A directory with a source file and a file that the generator wrote from it. -/
def regenerated : FileTree :=
  ⟨[(["work"], .directory), (["work", "models.rs"], .file (.text "")),
    (["work", "db_generated.rs"], .file (.text generatedMark))], ["work"]⟩

theorem ofFiles_kept_iff_regenerated :
    (∀ p ∈ ["models.rs", "db_generated.rs"], FilePath.isSource p = true) ∧
    InOneDirectory regenerated ["models.rs", "db_generated.rs"] ∧
    kept regenerated none ["models.rs", "db_generated.rs"] = ["models.rs"] ∧
    ((ofFiles regenerated ["models.rs", "db_generated.rs"] none).map content =
        (ofFiles regenerated ["models.rs"] none).map content ↔
      (∃ e, ofFiles regenerated ["models.rs"] none = .error e) ∨
      (FilePath.stem? "models.rs" = FilePath.stem? "models.rs" ∧
        (["db_generated.rs"] = [] ∨ [] ≠ ([] : List String) ∨
          childModule? "models.rs" = none))) := by
  have hsource : ∀ p ∈ ["models.rs", "db_generated.rs"], FilePath.isSource p = true := by
    decide +kernel
  have hdir : InOneDirectory regenerated ["models.rs", "db_generated.rs"] := by
    unfold InOneDirectory
    decide +kernel
  have hk : kept regenerated none ["models.rs", "db_generated.rs"] = ["models.rs"] := by
    decide +kernel
  exact ⟨hsource, hdir, hk, ofFiles_kept_iff hsource hdir hk⟩

/-- A list of source files of one directory does not give the same set without the files to skip:
a generated file next to the only other one makes that a child module. -/
theorem ofFiles_changed_by_skipped : ¬ ∀ (tree : FileTree) (exclude : Option String)
    (paths : List String),
    (∀ p ∈ paths, FilePath.isSource p = true ∧ tree.isFile p = true) →
    InOneDirectory tree paths → kept tree exclude paths ≠ [] →
    (ofFiles tree paths exclude).map content =
      (ofFiles tree (kept tree exclude paths) exclude).map content := by
  intro h
  have hdir : InOneDirectory regenerated ["models.rs", "db_generated.rs"] := by
    unfold InOneDirectory
    decide +kernel
  have heq := h regenerated none ["models.rs", "db_generated.rs"] (by decide +kernel) hdir
    (by decide +kernel)
  have hmodules := congrArg
    (fun set => (set.map fun c => c.2.map SourceFile.module).toOption) heq
  exact absurd hmodules (by decide +kernel)

end TaggedRows.SourceSet
