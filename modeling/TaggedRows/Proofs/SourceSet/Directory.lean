import TaggedRows.Proofs.FileTree.Resolution
import TaggedRows.Proofs.SourceSet.Skipping

/-!
# The sources of a directory

- **Names** (`mem_keptNames`): the files of a directory that a set reads are those that hold source
  text, are not the destination and were not written by the generator. They come in the order of
  their names (`ofDirectory_eq`).
- **Regenerated trees** (`Regenerated`): where generated texts were written, but not in the place
  of a source of the directory, the set stays as it was (`Regenerated.ofDirectory_eq`).
-/

namespace TaggedRows

/-- The content is a text that the generator wrote. -/
def FileContent.isGenerated : FileContent → Bool
  | .text t => TaggedRows.isGenerated t
  | .binary _ => false

namespace SourceSet

variable {tree tree' : FileTree} {dir loc : Location} {path name : String}
  {exclude : Option String} {content : FileContent} {names : List String}

/-! ## Names -/

/-- The file is to be read when a set is made of the directory. -/
def isRead (tree : FileTree) (exclude : Option String) (path name : String) : Bool :=
  tree.isFile (FilePath.join path name) && FilePath.isSource (FilePath.join path name) &&
    !isSkipped tree exclude (FilePath.join path name)

/-- The files of a directory that are to be read, in order. -/
def keptNames (tree : FileTree) (exclude : Option String) (path : String) (names : List String) :
    List String :=
  (names.mergeSort (fun a b => a ≤ b)).filter (isRead tree exclude path)

theorem sorted_filter_mergeSort (names : List String) (keep : String → Bool) :
    ((names.mergeSort (fun a b => a ≤ b)).filter keep).Pairwise (· ≤ ·) := by
  have hp : (names.mergeSort (fun a b => a ≤ b)).Pairwise fun a b => decide (a ≤ b) = true :=
    List.pairwise_mergeSort (fun a b c => by simpa using String.le_trans)
      (fun a b => by simpa using String.le_total a b) names
  exact (hp.sublist List.filter_sublist).imp (by simp)

theorem nodup_filter_mergeSort (h : names.Nodup) (keep : String → Bool) :
    ((names.mergeSort (fun a b => a ≤ b)).filter keep).Nodup :=
  ((List.mergeSort_perm names _).nodup_iff.mpr h).sublist List.filter_sublist

/-- Names in order are known by which names they are. -/
theorem eq_of_sorted {names' : List String} (hs : names.Pairwise (· ≤ ·))
    (hs' : names'.Pairwise (· ≤ ·)) (hn : names.Nodup) (hn' : names'.Nodup)
    (h : ∀ name, name ∈ names ↔ name ∈ names') : names = names' :=
  ((List.perm_ext_iff_of_nodup hn hn').mpr h).eq_of_pairwise
    (fun _ _ _ _ => String.le_antisymm) hs hs'

theorem keptNames_of_sorted (h : names.Pairwise (· ≤ ·)) :
    keptNames tree exclude path names = names.filter (isRead tree exclude path) := by
  rw [keptNames, List.mergeSort_of_pairwise (h.imp (by simp))]

/-- The set of a directory has the files that are to be read, in order. -/
theorem ofDirectory_eq (h : tree.list path = .ok names) : ofDirectory tree path exclude =
    (((keptNames tree exclude path names).map (FilePath.join path)).mapM
      (readFile tree true)).bind fun files =>
        if files.isEmpty then .error (.noSources path)
        else .ok ⟨directoryName tree path, path, files⟩ := by
  rw [ofDirectory, h]
  have hread : isRead tree exclude path = fun name =>
      !isSkipped tree exclude (FilePath.join path name) &&
        (tree.isFile (FilePath.join path name) && FilePath.isSource (FilePath.join path name)) :=
    funext fun _ => Bool.and_comm _ _
  simp only [load_eq_readFiles, kept, keptNames, List.filter_map, List.filter_filter,
    Function.comp_def, hread]

theorem directoryKey_of_find (h : tree.find path = .ok (dir, .directory)) :
    directoryKey tree path = .inl dir := by
  rw [directoryKey, canonical?, (FileTree.find_eq_ok.mp h).1]
  rfl

/-- The destination is known by its location. -/
theorem isDestination_iff (hl : FileTree.Leads tree path dir name)
    (he : (tree.lookup? (dir ++ [name])).isSome) : isDestination tree exclude path = true ↔
      exclude.bind (canonical? tree) = some (dir ++ [name]) := by
  have hc : canonical? tree path = some (dir ++ [name]) := by
    rw [canonical?, hl.resolve_eq_ok.mpr ⟨rfl, he⟩]
    rfl
  rw [isDestination, hc, Bool.and_eq_true, decide_eq_true_iff]
  constructor
  · rintro ⟨-, h⟩
    exact h.symm
  · intro h
    simp [h]

theorem holdsGenerated_eq (h : tree.find path = .ok (loc, .file content)) :
    holdsGenerated tree path = content.isGenerated := by
  unfold holdsGenerated FileTree.readText
  rw [h]
  cases content <;> rfl

/-- The file has source text to be read. -/
def IsSource (tree : FileTree) (dir : Location) (name : String) (content : FileContent) : Prop :=
  tree.lookup? (dir ++ [name]) = some (.file content) ∧ isSourceName name = true ∧
    content.isGenerated = false

theorem mem_keptNames (hwf : tree.WellFormed) (hd : tree.find path = .ok (dir, .directory))
    (hn : ∀ name, name ∈ names ↔ (tree.lookup? (dir ++ [name])).isSome) :
    name ∈ keptNames tree exclude path names ↔ (∃ content, IsSource tree dir name content) ∧
      exclude.bind (canonical? tree) ≠ some (dir ++ [name]) := by
  rw [keptNames, List.mem_filter, List.mem_mergeSort, hn]
  cases he : tree.lookup? (dir ++ [name]) with
  | none => simp [IsSource, he]
  | some entry =>
    have hname := hwf.isEntryName he
    have hl := FileTree.leads_join hd hname
    have hf := hl.find_eq_ok.mpr ⟨rfl, he⟩
    have hp := FileTree.ne_empty_of_resolve (FileTree.find_eq_ok.mp hd).1
    rw [isRead, FileTree.isFile, hf, FilePath.isSource_join hp hname]
    cases entry with
    | directory => simp [IsSource, he]
    | file content =>
      have hdest : isDestination tree exclude (FilePath.join path name) = true ↔
          exclude.bind (canonical? tree) = some (dir ++ [name]) :=
        isDestination_iff hl (by simp [he])
      rw [ne_eq, ← hdest]
      simp only [isSkipped, holdsGenerated_eq hf, IsSource, he, Option.some.injEq,
        Entry.file.injEq, exists_eq_left']
      cases isDestination tree exclude (FilePath.join path name) <;> simp [and_comm]

/-! ## Regenerated trees -/

/-- Generated texts were written to the tree, none of them in the place of a source of the
directory. -/
structure Regenerated (dir : Location) (tree tree' : FileTree) : Prop where
  wellFormed : tree'.WellFormed
  current : tree'.current = tree.current
  entry : ∀ loc, tree'.lookup? loc = tree.lookup? loc ∨
    (∃ text, tree'.lookup? loc = some (.file (.text text)) ∧ isGenerated text = true) ∧
      tree.lookup? loc ≠ some .directory ∧
        ∀ name content, loc = dir ++ [name] → ¬ IsSource tree dir name content

theorem Regenerated.refl (hwf : tree.WellFormed) (dir : Location) : Regenerated dir tree tree :=
  ⟨hwf, rfl, fun _ => .inl rfl⟩

namespace Regenerated

variable (h : Regenerated dir tree tree')
include h

theorem grows : FileTree.Grows tree tree' where
  current := h.current
  directory loc := by
    obtain he | ⟨⟨text, he, -⟩, hn, -⟩ := h.entry loc
    · rw [he]
    · simp [he, hn]
  present loc hl := by
    obtain he | ⟨⟨text, he, -⟩, -⟩ := h.entry loc
    · rwa [he]
    · simp [he]

/-- The directory has the same sources. -/
theorem isSource_iff : IsSource tree' dir name content ↔ IsSource tree dir name content := by
  obtain he | ⟨⟨text, he, hg⟩, -, hn⟩ := h.entry (dir ++ [name])
  · rw [IsSource, he, IsSource]
  · refine iff_of_false ?_ (hn name content rfl)
    rintro ⟨hc, -, hgen⟩
    obtain rfl : FileContent.text text = content := by simpa [he] using hc
    rw [FileContent.isGenerated, hg] at hgen
    cases hgen

/-- A path leads to an old entry as before. -/
theorem canonical?_iff (hl : (tree.lookup? loc).isSome) :
    canonical? tree' path = some loc ↔ canonical? tree path = some loc := by
  rw [canonical?, canonical?, toOption_eq_some, toOption_eq_some, h.grows.resolve_iff hl]

/-- A source of the directory is read as before. -/
theorem readFile_eq (hwf : tree.WellFormed) (hd : tree.find path = .ok (dir, .directory))
    (hs : IsSource tree dir name content) (several : Bool) :
    readFile tree' several (FilePath.join path name) =
      readFile tree several (FilePath.join path name) := by
  have hl := FileTree.leads_join hd (hwf.isEntryName hs.1)
  have hf := hl.find_eq_ok.mpr ⟨rfl, hs.1⟩
  have hf' := (h.grows.leads_iff.mpr hl).find_eq_ok.mpr ⟨rfl, (h.isSource_iff.mpr hs).1⟩
  rw [readFile, readFile, FileTree.readText, FileTree.readText, hf, hf']

/-- The same files of the directory are read. -/
theorem keptNames_eq (hwf : tree.WellFormed)
    (hd : tree.find path = .ok (dir, .directory)) {names' : List String}
    (hnodup : names.Nodup) (hn : ∀ name, name ∈ names ↔ (tree.lookup? (dir ++ [name])).isSome)
    (hnodup' : names'.Nodup)
    (hn' : ∀ name, name ∈ names' ↔ (tree'.lookup? (dir ++ [name])).isSome) :
    keptNames tree' exclude path names' = keptNames tree exclude path names := by
  have hmem : ∀ name, name ∈ keptNames tree' exclude path names' ↔
      name ∈ keptNames tree exclude path names := by
    intro name
    rw [mem_keptNames hwf hd hn, mem_keptNames h.wellFormed (h.grows.find_directory_iff.mpr hd) hn']
    simp only [h.isSource_iff]
    refine and_congr_right fun ⟨content, hs⟩ => not_congr ?_
    cases exclude with
    | none => rfl
    | some output => exact h.canonical?_iff (by simp [hs.1])
  exact eq_of_sorted (sorted_filter_mergeSort _ _) (sorted_filter_mergeSort _ _)
    (nodup_filter_mergeSort hnodup' _) (nodup_filter_mergeSort hnodup _) hmem

/-- The set of the directory is the same. -/
theorem ofDirectory_eq (hwf : tree.WellFormed) (hd : tree.find path = .ok (dir, .directory))
    (exclude : Option String) : ofDirectory tree' path exclude = ofDirectory tree path exclude := by
  have hd' := h.grows.find_directory_iff.mpr hd
  obtain ⟨names, hlist, hnodup, hn⟩ := hwf.list_eq hd
  obtain ⟨names', hlist', hnodup', hn'⟩ := h.wellFormed.list_eq hd'
  have hname : directoryName tree' path = directoryName tree path := by
    simp only [directoryName, canonical?, (FileTree.find_eq_ok.mp hd).1,
      (FileTree.find_eq_ok.mp hd').1]
  rw [SourceSet.ofDirectory_eq hlist, SourceSet.ofDirectory_eq hlist', hname,
    h.keptNames_eq hwf hd hnodup hn hnodup' hn']
  congr 1
  refine mapM_congr fun file hfile => ?_
  obtain ⟨name, hk, rfl⟩ := List.mem_map.mp hfile
  obtain ⟨⟨content, hs⟩, -⟩ := (mem_keptNames hwf hd hn).mp hk
  exact h.readFile_eq hwf hd hs true

/-- A write goes where it would have gone. -/
theorem destination_iff (hwf : tree.WellFormed) {output : String} :
    tree'.destination output = .ok loc ↔ tree.destination output = .ok loc :=
  h.grows.destination_iff hwf h.wellFormed

/-- A generated text may be written, though not in the place of a source of the directory. -/
theorem put (hwf : tree.WellFormed) {output text : String}
    (hdest : tree.destination output = .ok loc) (hg : isGenerated text = true)
    (hs : ∀ name content, loc = dir ++ [name] → ¬ IsSource tree dir name content) :
    Regenerated dir tree (tree'.put loc (.file (.text text))) := by
  obtain ⟨parent, last, hl, rfl, hne⟩ := hwf.destination_eq_ok_iff.mp hdest
  refine ⟨h.wellFormed.put ((h.grows.directory _).mpr hl.2.1) hl.1
    (fun hd => hne ((h.grows.directory _).mp hd)) _, h.current, fun at_ => ?_⟩
  rw [FileTree.lookup?_put]
  split
  · next he =>
    obtain ⟨rfl, -⟩ := he
    exact .inr ⟨⟨text, rfl, hg⟩, hne, hs⟩
  · exact h.entry at_

end Regenerated

end SourceSet

end TaggedRows
