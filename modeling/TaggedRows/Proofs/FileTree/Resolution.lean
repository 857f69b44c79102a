import TaggedRows.Proofs.FileTree.Names
import TaggedRows.Proofs.Attempts

/-!
# Trees and the paths in them

- **Well-formed trees** (`WellFormed`): every entry is in a directory, under a name of its own.
  A file that is written there keeps this (`WellFormed.put`).
- **Resolution**: where a path leads does not change while a tree only grows by files
  (`Grows.resolve_iff`), and so does not where a write to it goes (`Grows.destination_iff`).
- **Directories**: the names in a directory (`WellFormed.list_eq`), and the paths of the entries
  that have them (`leads_join_iff`).
-/

namespace TaggedRows.FileTree

variable {tree tree' : FileTree} {loc dir target : Location} {entry : Entry} {name path : String}

/-! ## Entries -/

theorem lookup?_of_ne_nil (h : loc ≠ []) : tree.lookup? loc = tree.entries.lookup loc :=
  if_neg h

/-- Entries at another location do not matter. -/
theorem lookup_filter {at_ : Location} (h : at_ ≠ loc) (entries : List (Location × Entry)) :
    (entries.filter (·.1 ≠ loc)).lookup at_ = entries.lookup at_ := by
  induction entries with
  | nil => rfl
  | cons e entries ih =>
    by_cases he : e.1 = loc
    · rw [List.filter_cons_of_neg (by simpa using he), ih, List.lookup_cons,
        beq_false_of_ne (fun h' => h (h'.trans he))]
    · rw [List.filter_cons_of_pos (by simpa using he), List.lookup_cons, ih, List.lookup_cons]

/-- Only the root cannot be replaced. -/
theorem lookup?_put (tree : FileTree) (loc : Location) (entry : Entry) (at_ : Location) :
    (tree.put loc entry).lookup? at_ =
      if at_ = loc ∧ loc ≠ [] then some entry else tree.lookup? at_ := by
  by_cases hn : at_ = []
  · subst hn
    rw [if_neg (fun h => h.2 h.1.symm)]
    rfl
  rw [lookup?_of_ne_nil hn, lookup?_of_ne_nil hn, put, List.lookup_append]
  by_cases he : at_ = loc
  · subst he
    have hnone : (tree.entries.filter (·.1 ≠ at_)).lookup at_ = none := by
      rw [List.lookup_eq_none_iff]
      intro e he
      have hne : e.1 ≠ at_ := by simpa using (List.mem_filter.mp he).2
      simpa using hne.symm
    rw [hnone, List.lookup_cons_self, if_pos ⟨rfl, hn⟩]
    rfl
  · rw [lookup_filter he, List.lookup_cons, beq_false_of_ne he, if_neg (fun h => he h.1)]
    simp

theorem put_put (tree : FileTree) (loc : Location) (entry entry' : Entry) :
    (tree.put loc entry).put loc entry' = tree.put loc entry' := by
  simp [put, List.filter_append, List.filter_filter]

/-- Every entry is in a directory, under a name that no other entry there has. -/
structure WellFormed (tree : FileTree) : Prop where
  nodup : (tree.entries.map Prod.fst).Nodup
  placed : ∀ e ∈ tree.entries, ∃ name ∈ e.1.getLast?,
    IsEntryName name ∧ tree.lookup? e.1.dropLast = some .directory

theorem mem_of_lookup? (hn : loc ≠ []) (h : tree.lookup? loc = some entry) :
    (loc, entry) ∈ tree.entries := by
  rw [lookup?_of_ne_nil hn] at h
  obtain ⟨front, back, he, -⟩ := List.lookup_eq_some_iff.mp h
  simp [he]

theorem WellFormed.exists_parent (hwf : tree.WellFormed) (hn : loc ≠ [])
    (h : tree.lookup? loc = some entry) : ∃ dir name, loc = dir ++ [name] ∧ IsEntryName name ∧
      tree.lookup? dir = some .directory := by
  obtain ⟨name, hlast, hname, hdir⟩ := hwf.placed _ (mem_of_lookup? hn h)
  obtain ⟨dir, rfl⟩ := List.getLast?_eq_some_iff.mp hlast
  exact ⟨dir, name, rfl, hname, by simpa using hdir⟩

theorem WellFormed.isEntryName (hwf : tree.WellFormed)
    (h : tree.lookup? (dir ++ [name]) = some entry) : IsEntryName name := by
  obtain ⟨_, name', he, hname, -⟩ := hwf.exists_parent (by simp) h
  obtain rfl : name = name' := by simpa using congrArg List.getLast? he
  exact hname

/-- What is above a directory is a directory. -/
theorem WellFormed.lookup?_dropLast (hwf : tree.WellFormed)
    (h : tree.lookup? loc = some .directory) : tree.lookup? loc.dropLast = some .directory := by
  by_cases hn : loc = []
  · subst hn
    rfl
  · obtain ⟨dir, name, rfl, -, hdir⟩ := hwf.exists_parent hn h
    rwa [List.dropLast_concat]

/-- A file may be written in a directory, but not in the place of one. -/
theorem WellFormed.put (hwf : tree.WellFormed) (hdir : tree.lookup? dir = some .directory)
    (hname : IsEntryName name) (hloc : tree.lookup? (dir ++ [name]) ≠ some .directory)
    (content : FileContent) : (tree.put (dir ++ [name]) (.file content)).WellFormed := by
  have hkeep : ∀ at_, tree.lookup? at_ = some .directory →
      (tree.put (dir ++ [name]) (.file content)).lookup? at_ = some .directory := by
    intro at_ h
    rw [lookup?_put, if_neg (by rintro ⟨rfl, -⟩; exact hloc h), h]
  refine ⟨?_, fun e he => ?_⟩
  · rw [FileTree.put, List.map_append, List.nodup_append]
    refine ⟨hwf.nodup.sublist (List.filter_sublist.map _), by simp, ?_⟩
    rintro at_ ha _ hb rfl
    obtain ⟨e, he, he'⟩ := List.mem_map.mp ha
    have hne := (List.mem_filter.mp he).2
    simp_all
  · rcases List.mem_append.mp he with he | he
    · obtain ⟨n, hlast, hn, hd⟩ := hwf.placed e (List.mem_filter.mp he).1
      exact ⟨n, hlast, hn, hkeep _ hd⟩
    · obtain rfl := List.mem_singleton.mp he
      exact ⟨name, by simp, hname, hkeep _ (by simpa using hdir)⟩

/-! ## Resolution -/

theorem step_eq_ok {piece : String} : tree.step loc piece = .ok target ↔
    tree.lookup? loc = some .directory ∧
      (((piece = "" ∨ piece = ".") ∧ loc = target) ∨ (piece = ".." ∧ loc.dropLast = target) ∨
        (piece ≠ "" ∧ piece ≠ "." ∧ piece ≠ ".." ∧ loc ++ [piece] = target ∧
          (tree.lookup? target).isSome)) := by
  unfold step
  split
  · next h => simp [h]
  · next h => simp [h]
  · next h =>
    rw [h]
    by_cases hhere : piece = "" ∨ piece = "."
    · rcases hhere with rfl | rfl <;> simp
    by_cases hup : piece = ".."
    · subst hup
      simp
    rw [if_neg hhere, if_neg hup]
    rw [not_or] at hhere
    split
    · next he =>
      simp only [Except.ok.injEq, hhere, hup]
      constructor
      · rintro rfl
        simp [he, hhere, hup]
      · simp +contextual
    · next he =>
      simp only [hhere, hup]
      constructor
      · rintro ⟨⟩
      · rintro ⟨-, ⟨h', -⟩ | ⟨h', -⟩ | ⟨-, -, -, rfl, h'⟩⟩
        · simp at h'
        · exact h'.elim
        · exact absurd h' he

theorem foldlM_concat_eq_ok {pieces : List String} {piece : String} {start : Location} :
    (pieces ++ [piece]).foldlM tree.step start = .ok target ↔
      ∃ dir, pieces.foldlM tree.step start = .ok dir ∧ tree.step dir piece = .ok target := by
  rw [List.foldlM_append, bind_eq_ok]
  simp

/-- The pieces of a path before its last one, and that. -/
theorem exists_piecesOf (path : String) : ∃ front last, piecesOf path = front ++ [last] ∧
    '/' ∉ last.toList := by
  have hn : Text.pieces '/' path.toList ≠ [] := Text.pieces_ne_nil _ _
  refine ⟨((Text.pieces '/' path.toList).dropLast).map String.ofList,
    String.ofList ((Text.pieces '/' path.toList).getLast hn), ?_, ?_⟩
  · rw [piecesOf, Text.piecesOf]
    calc (Text.pieces '/' path.toList).map String.ofList
        = ((Text.pieces '/' path.toList).dropLast ++
            [(Text.pieces '/' path.toList).getLast hn]).map String.ofList := by
          rw [List.dropLast_concat_getLast]
      _ = _ := List.map_append
  · rw [String.toList_ofList]
    exact Text.notMem_of_mem_pieces (List.getLast_mem hn)

theorem resolve_of_ne_empty (h : path ≠ "") :
    tree.resolve path = (piecesOf path).foldlM tree.step (tree.start path) :=
  if_neg h

theorem ne_empty_of_resolve (h : tree.resolve path = .ok loc) : path ≠ "" := by
  rintro rfl
  simp [resolve] at h

theorem find_eq_ok : tree.find path = .ok (loc, entry) ↔
    tree.resolve path = .ok loc ∧ tree.lookup? loc = some entry := by
  unfold find
  cases tree.resolve path with
  | error e => simp
  | ok at_ =>
    simp only [Except.ok.injEq]
    constructor
    · intro h
      split at h
      · next he =>
        cases h
        exact ⟨rfl, he⟩
      · cases h
    · rintro ⟨rfl, h⟩
      rw [h]

/-! ## Growing -/

/-- The second tree has the same directories, and a file at least where the first has one. -/
structure Grows (tree tree' : FileTree) : Prop where
  current : tree'.current = tree.current
  directory : ∀ loc, tree'.lookup? loc = some .directory ↔ tree.lookup? loc = some .directory
  present : ∀ loc, (tree.lookup? loc).isSome → (tree'.lookup? loc).isSome

namespace Grows

variable (h : Grows tree tree')
include h

theorem step_iff {piece : String} (ht : (tree.lookup? target).isSome) :
    tree'.step loc piece = .ok target ↔ tree.step loc piece = .ok target := by
  simp only [step_eq_ok, h.directory, ht, h.present target ht]

/-- Pieces lead to the same old entry. On the way there are directories only, and these are the
same in both trees. -/
theorem foldlM_step_iff (ht : (tree.lookup? target).isSome) (pieces : List String)
    (start : Location) : pieces.foldlM tree'.step start = .ok target ↔
      pieces.foldlM tree.step start = .ok target := by
  induction pieces generalizing start with
  | nil => simp
  | cons piece pieces ih =>
    rw [List.foldlM_cons, List.foldlM_cons, bind_eq_ok, bind_eq_ok]
    refine exists_congr fun next => ?_
    rw [ih, and_congr_left_iff]
    intro hrest
    refine h.step_iff ?_
    cases pieces with
    | nil =>
      cases hrest
      exact ht
    | cons piece' pieces =>
      rw [List.foldlM_cons, bind_eq_ok] at hrest
      obtain ⟨_, hstep, -⟩ := hrest
      simp [(step_eq_ok.mp hstep).1]

theorem start_eq (path : String) : tree'.start path = tree.start path := by
  rw [start, start, h.current]

/-- A path leads to an old entry in both trees or in none. -/
theorem resolve_iff (ht : (tree.lookup? target).isSome) :
    tree'.resolve path = .ok target ↔ tree.resolve path = .ok target := by
  by_cases hp : path = ""
  · simp [resolve, hp]
  · rw [resolve_of_ne_empty hp, resolve_of_ne_empty hp, h.start_eq, h.foldlM_step_iff ht]

theorem find_directory_iff :
    tree'.find path = .ok (loc, .directory) ↔ tree.find path = .ok (loc, .directory) := by
  rw [find_eq_ok, find_eq_ok, h.directory, and_congr_left_iff]
  intro hd
  exact h.resolve_iff (by simp [hd])

end Grows

/-! ## Names in directories -/

/-- The path leads to a name in a directory, whether or not an entry has the name. -/
def Leads (tree : FileTree) (path : String) (dir : Location) (name : String) : Prop :=
  IsEntryName name ∧ tree.lookup? dir = some .directory ∧
    ∃ front, piecesOf path = front ++ [name] ∧
      front.foldlM tree.step (tree.start path) = .ok dir

theorem Grows.leads_iff (h : Grows tree tree') :
    Leads tree' path dir name ↔ Leads tree path dir name := by
  unfold Leads
  refine and_congr_right fun _ => ?_
  rw [h.directory, h.start_eq]
  refine and_congr_right fun hd => exists_congr fun front => and_congr_right fun _ => ?_
  exact h.foldlM_step_iff (by simp [hd]) front _

namespace Leads

variable (h : Leads tree path dir name)
include h

theorem path_ne_empty : path ≠ "" := by
  rintro rfl
  obtain ⟨hname, -, front, hf, -⟩ := h
  have hlast := congrArg List.getLast? hf
  rw [show piecesOf "" = [""] from rfl, List.getLast?_concat] at hlast
  exact hname.ne_empty (Option.some.inj hlast).symm

theorem resolve_eq : tree.resolve path = tree.step dir name := by
  have hp := h.path_ne_empty
  obtain ⟨-, -, front, hf, hdir⟩ := h
  rw [resolve_of_ne_empty hp, hf, List.foldlM_append, hdir]
  change [name].foldlM tree.step dir = tree.step dir name
  simp

theorem resolve_eq_ok : tree.resolve path = .ok loc ↔
    dir ++ [name] = loc ∧ (tree.lookup? loc).isSome := by
  obtain ⟨hname, hdir, -⟩ := id h
  rw [h.resolve_eq, step_eq_ok]
  simp [hdir, hname.ne_empty, hname.ne_here, hname.ne_up]

theorem find_eq_ok : tree.find path = .ok (loc, entry) ↔
    dir ++ [name] = loc ∧ tree.lookup? loc = some entry := by
  rw [FileTree.find_eq_ok, h.resolve_eq_ok]
  constructor
  · rintro ⟨⟨rfl, -⟩, he⟩
    exact ⟨rfl, he⟩
  · rintro ⟨rfl, he⟩
    exact ⟨⟨rfl, by simp [he]⟩, he⟩

theorem find_eq_notFound (hn : tree.lookup? (dir ++ [name]) = none) :
    tree.find path = .error .notFound := by
  have hstep : tree.step dir name = .error .notFound := by
    simp [step, h.2.1, h.1.ne_empty, h.1.ne_here, h.1.ne_up, hn]
  rw [find, h.resolve_eq, hstep]

/-- A write goes to the name, unless it is that of a directory. -/
theorem destination_eq_ok : tree.destination path = .ok loc ↔
    dir ++ [name] = loc ∧ tree.lookup? loc ≠ some .directory := by
  cases hl : tree.lookup? (dir ++ [name]) with
  | some e =>
    rw [destination, h.find_eq_ok.mpr ⟨rfl, hl⟩]
    cases e with
    | directory =>
      simp only [reduceCtorEq, false_iff, not_and, ne_eq, Decidable.not_not]
      rintro rfl
      exact hl
    | file content =>
      simp only [Except.ok.injEq, iff_self_and]
      rintro rfl
      simp [hl]
  | none =>
    have hp := h.path_ne_empty
    obtain ⟨hname, hdir, front, hf, hfold⟩ := id h
    rw [destination, h.find_eq_notFound hl]
    simp only [hp, hf, List.dropLast_concat, hfold, List.getLast?_concat, hname.ne_empty, hdir,
      if_false, Except.ok.injEq, iff_self_and]
    rintro rfl
    simp [hl]

end Leads

/-- A path with an entry leads to a name in a directory, unless the entry is a directory. -/
theorem WellFormed.leads_of_file (hwf : tree.WellFormed) {content : FileContent}
    (h : tree.find path = .ok (loc, .file content)) : ∃ dir name, Leads tree path dir name := by
  obtain ⟨hresolve, hfile⟩ := find_eq_ok.mp h
  obtain ⟨front, last, hf, hslash⟩ := exists_piecesOf path
  rw [resolve_of_ne_empty (ne_empty_of_resolve hresolve), hf, foldlM_concat_eq_ok] at hresolve
  obtain ⟨dir, hfold, hstep⟩ := hresolve
  obtain ⟨hdir, ⟨-, rfl⟩ | ⟨-, rfl⟩ | ⟨he, hh, hu, -⟩⟩ := step_eq_ok.mp hstep
  · cases hdir.symm.trans hfile
  · cases (hwf.lookup?_dropLast hdir).symm.trans hfile
  · exact ⟨dir, last, ⟨he, hh, hu, hslash⟩, hdir, front, hf, hfold⟩

/-- So does one with no entry that can be written to. -/
theorem WellFormed.leads_of_destination (hwf : tree.WellFormed)
    (h : tree.destination path = .ok loc) : ∃ dir name, Leads tree path dir name := by
  rw [destination] at h
  split at h
  · cases h
  · next hfind => exact hwf.leads_of_file hfind
  · next hfind =>
    split at h
    · cases h
    next hp =>
    obtain ⟨front, last, hf, hslash⟩ := exists_piecesOf path
    simp only [hf, List.dropLast_concat, List.getLast?_concat] at h
    split at h
    · cases h
    next dir hfold =>
    split at h
    · cases h
    next he =>
    split at h
    · next hdir =>
      have hstep : ∀ at_, tree.step dir last = .ok at_ → tree.lookup? at_ ≠ some .directory := by
        intro at_ hs hd
        have hresolve : tree.resolve path = .ok at_ := by
          rw [resolve_of_ne_empty hp, hf, foldlM_concat_eq_ok]
          exact ⟨dir, hfold, hs⟩
        rw [find_eq_ok.mpr ⟨hresolve, hd⟩] at hfind
        cases hfind
      have hh : last ≠ "." := fun hl =>
        hstep dir (step_eq_ok.mpr ⟨hdir, .inl ⟨.inr hl, rfl⟩⟩) hdir
      have hu : last ≠ ".." := fun hl =>
        hstep dir.dropLast (step_eq_ok.mpr ⟨hdir, .inr (.inl ⟨hl, rfl⟩)⟩)
          (hwf.lookup?_dropLast hdir)
      exact ⟨dir, last, ⟨he, hh, hu, hslash⟩, hdir, front, hf, hfold⟩
    · cases h
    · cases h
  · cases h

/-- A write goes to a name in a directory. -/
theorem WellFormed.destination_eq_ok_iff (hwf : tree.WellFormed) :
    tree.destination path = .ok loc ↔ ∃ dir name, Leads tree path dir name ∧
      dir ++ [name] = loc ∧ tree.lookup? loc ≠ some .directory := by
  constructor
  · intro h
    obtain ⟨dir, name, hl⟩ := hwf.leads_of_destination h
    exact ⟨dir, name, hl, hl.destination_eq_ok.mp h⟩
  · rintro ⟨dir, name, hl, h⟩
    exact hl.destination_eq_ok.mpr h

/-- A write goes to the same place while the tree grows. -/
theorem Grows.destination_iff (h : Grows tree tree') (hwf : tree.WellFormed)
    (hwf' : tree'.WellFormed) : tree'.destination path = .ok loc ↔
      tree.destination path = .ok loc := by
  rw [hwf.destination_eq_ok_iff, hwf'.destination_eq_ok_iff]
  simp only [h.leads_iff, ne_eq, h.directory]

/-- A file that is written to is the one that the path leads to. -/
theorem WellFormed.find_of_destination (hwf : tree.WellFormed)
    (h : tree.destination path = .ok loc) (he : tree.lookup? loc = some entry) :
    tree.find path = .ok (loc, entry) := by
  obtain ⟨dir, name, hl, heq, -⟩ := hwf.destination_eq_ok_iff.mp h
  exact hl.find_eq_ok.mpr ⟨heq, he⟩

/-! ## The contents of a directory -/

theorem start_join {dirPath : String} (hp : dirPath ≠ "") (hname : IsEntryName name) :
    tree.start (FilePath.join dirPath name) = tree.start dirPath := by
  obtain ⟨front, hjoin, hfront⟩ := FilePath.toList_join hp hname
  have hslash : (FilePath.join dirPath name).startsWith "/" = true ↔
      dirPath.startsWith "/" = true := by
    rw [FilePath.startsWith_iff, FilePath.startsWith_iff, hjoin]
    cases front with
    | nil =>
      have hroot : dirPath.toList = ['/'] := hfront.resolve_left (by simpa using hp)
      simp [hroot]
    | cons c front => rcases hfront with hfront | hfront <;> simp [hfront]
  simp only [start, hslash]

/-- The path of a name in a directory leads there, and nowhere else. -/
theorem leads_join_iff {dirPath fileName : String} (hp : dirPath ≠ "")
    (hname : IsEntryName fileName) : Leads tree (FilePath.join dirPath fileName) dir name ↔
      tree.find dirPath = .ok (dir, .directory) ∧ name = fileName := by
  obtain ⟨front, hjoin, hfront⟩ := FilePath.toList_join hp hname
  -- A slash at the end makes an empty piece, which leads nowhere else.
  have hresolve : tree.lookup? dir = some .directory → (tree.resolve dirPath = .ok dir ↔
      ((Text.pieces '/' front).map String.ofList).foldlM tree.step (tree.start dirPath) =
        .ok dir) := by
    intro hdir
    rw [resolve_of_ne_empty hp, piecesOf, Text.piecesOf]
    rcases hfront with hfront | hfront
    · rw [hfront]
    · rw [hfront, Text.pieces_append, List.map_append]
      refine foldlM_concat_eq_ok.trans ⟨?_, fun h => ⟨dir, h, step_eq_ok.mpr ⟨hdir, by simp⟩⟩⟩
      rintro ⟨at_, hfold, hstep⟩
      obtain ⟨-, ⟨-, rfl⟩ | ⟨he, -⟩ | ⟨he, -⟩⟩ := step_eq_ok.mp hstep
      · exact hfold
      · exact absurd he (by decide)
      · exact absurd rfl he
  have hpieces := piecesOf_of_slash hname hjoin
  constructor
  · rintro ⟨-, hdir, names, hnames, hfold⟩
    obtain ⟨rfl, rfl⟩ := List.append_singleton_inj.mp (hnames.symm.trans hpieces)
    rw [start_join hp hname] at hfold
    exact ⟨find_eq_ok.mpr ⟨(hresolve hdir).mpr hfold, hdir⟩, rfl⟩
  · rintro ⟨h, rfl⟩
    obtain ⟨hdirPath, hdir⟩ := find_eq_ok.mp h
    exact ⟨hname, hdir, _, hpieces, by rw [start_join hp hname, ← hresolve hdir, hdirPath]⟩

theorem leads_join {dirPath : String} (h : tree.find dirPath = .ok (dir, .directory))
    (hname : IsEntryName name) : Leads tree (FilePath.join dirPath name) dir name :=
  (leads_join_iff (ne_empty_of_resolve (find_eq_ok.mp h).1) hname).mpr ⟨h, rfl⟩

/-- The name that an entry has in a directory, if it is there. -/
def nameIn? (dir : Location) (e : Location × Entry) : Option String :=
  match e.1.getLast? with
  | some name => if e.1.dropLast = dir then some name else none
  | none => none

theorem nameIn?_eq_some {e : Location × Entry} : nameIn? dir e = some name ↔
    e.1 = dir ++ [name] := by
  unfold nameIn?
  split
  · next last hlast =>
    obtain ⟨front, hl⟩ := List.getLast?_eq_some_iff.mp hlast
    rw [hl, List.dropLast_concat]
    split
    · next hd =>
      subst hd
      simp
    · next hd => simp [hd]
  · next hlast =>
    rw [List.getLast?_eq_none_iff.mp hlast]
    simp

/-- The names in a directory, each once. -/
theorem WellFormed.list_eq (hwf : tree.WellFormed) (h : tree.find path = .ok (dir, .directory)) :
    ∃ names, tree.list path = .ok names ∧ names.Nodup ∧
      ∀ name, name ∈ names ↔ (tree.lookup? (dir ++ [name])).isSome := by
  refine ⟨tree.entries.filterMap (nameIn? dir), by rw [list, h]; rfl, ?_, fun name => ?_⟩
  · rw [List.Nodup, List.pairwise_filterMap]
    refine (List.pairwise_map.mp hwf.nodup).imp ?_
    intro e e' hne name hn name' hn' heq
    rw [nameIn?_eq_some] at hn hn'
    exact hne (by rw [hn, hn', heq])
  · rw [lookup?_of_ne_nil (by simp), List.lookup_isSome_iff]
    simp only [List.mem_filterMap, nameIn?_eq_some, beq_iff_eq]
    exact exists_congr fun e => and_congr_right fun _ => eq_comm

end TaggedRows.FileTree
