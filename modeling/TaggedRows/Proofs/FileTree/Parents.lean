import TaggedRows.Proofs.FileTree.Resolution

/-!
# The directory in front of a file name

- **Components** (`placeComponents_concat`, `endsIn_placeComponents`): the last component
  of a path ends where only empty pieces and dots follow it.
- **Parents** (`Leads.find_parentDir`): so the directory that a path is said to be in is the one
  that it leads to a name in.
-/

namespace TaggedRows

namespace Text

theorem joinPieces_cons {sep : Char} {piece : List Char} {ps : List (List Char)} (h : ps ≠ []) :
    joinPieces sep (piece :: ps) = piece ++ sep :: joinPieces sep ps := by
  obtain ⟨next, rest, rfl⟩ := List.exists_cons_of_ne_nil h
  rfl

theorem joinPieces_append {sep : Char} {ps qs : List (List Char)} (hp : ps ≠ []) (hq : qs ≠ []) :
    joinPieces sep (ps ++ qs) = joinPieces sep ps ++ sep :: joinPieces sep qs := by
  induction ps with
  | nil => exact absurd rfl hp
  | cons piece ps ih =>
    by_cases hn : ps = []
    · subst hn
      exact joinPieces_cons hq
    · rw [List.cons_append, joinPieces_cons (by simp [hn]), joinPieces_cons hn, ih hn]
      simp

/-- Joined pieces come apart again. -/
theorem pieces_joinPieces {sep : Char} {ps : List (List Char)} (hn : ps ≠ [])
    (h : ∀ p ∈ ps, sep ∉ p) : pieces sep (joinPieces sep ps) = ps := by
  induction ps with
  | nil => exact absurd rfl hn
  | cons piece ps ih =>
    have hpiece := h piece List.mem_cons_self
    by_cases hps : ps = []
    · subst hps
      exact pieces_of_notMem hpiece
    · rw [joinPieces_cons hps, pieces_append, pieces_of_notMem hpiece,
        ih hps fun p hp => h p (List.mem_cons_of_mem _ hp)]
      rfl

end Text

namespace FilePath

open Text

/-- A piece that leads nowhere else. -/
def IsIdle (piece : List Char) : Prop := piece = [] ∨ piece = ['.']

/-- A name in the last place is one more component. -/
theorem placeComponents_concat {name : String} (hname : IsEntryName name) (first : Bool)
    (start : Nat) (front : List (List Char)) :
    ∃ stop, placeComponents first start (front ++ [name.toList]) =
      placeComponents first start front ++ [⟨.name name, stop⟩] := by
  induction front generalizing first start with
  | nil =>
    have he := toList_ne "" hname.ne_empty
    have hh : name.toList ≠ ['.'] := toList_ne "." hname.ne_here
    have hu : name.toList ≠ ['.', '.'] := toList_ne ".." hname.ne_up
    simp only [String.toList_empty] at he
    exact ⟨start + name.toList.length, by simp [placeComponents, he, hh, hu]⟩
  | cons piece front ih =>
    obtain ⟨stop, hstop⟩ := ih false (start + piece.length + 1)
    refine ⟨stop, ?_⟩
    rw [List.cons_append, placeComponents, placeComponents, hstop]
    split
    · rfl
    split
    · split <;> rfl
    split <;> rfl

/-- The last of the components is that of a piece which only idle ones follow, and it ends there. -/
def EndsIn (start : Nat) (ps : List (List Char)) (placed : List PlacedComponent) : Prop :=
  ∃ before last after c, ps = before ++ last :: after ∧ last ≠ [] ∧ (∀ p ∈ after, IsIdle p) ∧
    placed.getLast? = some ⟨c, start + (joinPieces '/' (before ++ [last])).length⟩

section

variable {start : Nat} {piece : List Char} {ps : List (List Char)} {placed : List PlacedComponent}

/-- A component among the later pieces is still the last one. -/
theorem EndsIn.cons (h : EndsIn (start + piece.length + 1) ps placed)
    (front : List PlacedComponent) : EndsIn start (piece :: ps) (front ++ placed) := by
  obtain ⟨before, last, after, c, rfl, hne, hidle, hl⟩ := h
  refine ⟨piece :: before, last, after, c, rfl, hne, hidle, ?_⟩
  rw [List.getLast?_append, hl, List.cons_append, joinPieces_cons (by simp)]
  simp only [Option.some_or, List.length_append, List.length_cons]
  rw [show start + piece.length + 1 + (joinPieces '/' (before ++ [last])).length =
    start + (piece.length + ((joinPieces '/' (before ++ [last])).length + 1)) by omega]

/-- The first piece is that of the last component if only idle ones follow. -/
theorem endsIn_head (c : PathComponent) (hne : piece ≠ []) (hidle : ∀ p ∈ ps, IsIdle p) :
    EndsIn start (piece :: ps) [⟨c, start + piece.length⟩] :=
  ⟨[], piece, ps, c, rfl, hne, hidle, rfl⟩

end

/-- The last component ends where only idle pieces follow. -/
theorem endsIn_placeComponents (first : Bool) (start : Nat) (ps : List (List Char)) :
    (placeComponents first start ps = [] ∧ (∀ p ∈ ps, IsIdle p) ∧
      (first = true → ∀ p ∈ ps.head?, p = [])) ∨
    EndsIn start ps (placeComponents first start ps) := by
  induction ps generalizing first start with
  | nil => exact .inl ⟨rfl, by simp, by simp⟩
  | cons piece ps ih =>
    have hrec := ih false (start + piece.length + 1)
    -- A piece with a component is the last one of these, or another follows.
    have hplaced (c : PathComponent) (hne : piece ≠ []) : EndsIn start (piece :: ps)
        (⟨c, start + piece.length⟩ :: placeComponents false (start + piece.length + 1) ps) := by
      rcases hrec with ⟨hnil, hidle, -⟩ | hsome
      · rw [hnil]
        exact endsIn_head c hne hidle
      · exact hsome.cons [_]
    rw [placeComponents]
    split
    · next he =>
      subst he
      rcases hrec with ⟨hnil, hidle, -⟩ | hsome
      · exact .inl ⟨hnil, List.forall_mem_cons.mpr ⟨.inl rfl, hidle⟩, by simp⟩
      · exact .inr (hsome.cons [])
    next hne =>
    split
    · next hdot =>
      subst hdot
      cases first with
      | true => exact .inr (hplaced .here hne)
      | false =>
        rcases hrec with ⟨hnil, hidle, -⟩ | hsome
        · exact .inl ⟨hnil, List.forall_mem_cons.mpr ⟨.inr rfl, hidle⟩, by simp⟩
        · exact .inr (hsome.cons [])
    split <;> exact .inr (hplaced _ hne)

/-- Pieces without a component are idle, and the first piece of a path is even empty. -/
theorem isIdle_of_placeComponents_eq_nil {first : Bool} {start : Nat} {ps : List (List Char)}
    (h : placeComponents first start ps = []) :
    (∀ p ∈ ps, IsIdle p) ∧ (first = true → ∀ p ∈ ps.head?, p = []) := by
  obtain ⟨-, hidle⟩ | ⟨_, _, _, _, -, -, -, hlast⟩ := endsIn_placeComponents first start ps
  · exact hidle
  · simp [h] at hlast

/-- The parent ends with the component before the file name. -/
theorem parentDir_eq {path : String} {before : List PlacedComponent}
    {previous last : PlacedComponent} (start : List Char) {rest : List Char}
    (hc : components path = before ++ [previous, last]) (hroot : last.component ≠ .root)
    (hpath : path.toList = start ++ rest) (hstop : previous.stop = start.length)
    (hne : start ≠ []) : parentDir path = String.ofList start := by
  have hparent : parent? path = some (String.ofList start) := by
    rw [parent?, hc]
    simp only [List.reverse_append, List.reverse_cons, List.reverse_nil, List.nil_append,
      List.cons_append]
    split
    · next hn => cases hn
    · next hn =>
      cases hn
      exact absurd rfl hroot
    · next hn => cases hn
    · next hn =>
      cases hn
      rw [hstop, hpath, List.take_left]
  rw [parentDir, hparent]
  split
  · next he => exact absurd (congrArg String.toList (Option.some.inj he)) (by simpa using hne)
  · next he => exact (Option.some.inj he).symm
  · next he => cases he

theorem parentDir_ne_empty (path : String) : parentDir path ≠ "" := by
  unfold parentDir
  split
  · decide
  · next hne _ => exact fun he => hne he
  · decide

end FilePath

namespace FileTree

open Text FilePath

variable {tree : FileTree} {loc dir : Location} {name path : String}

/-- Idle pieces lead nowhere else. -/
theorem eq_of_foldlM_idle {pieces : List (List Char)} (h : ∀ p ∈ pieces, IsIdle p)
    (hf : (pieces.map String.ofList).foldlM tree.step loc = .ok dir) : loc = dir := by
  induction pieces generalizing loc with
  | nil =>
    cases hf
    rfl
  | cons piece pieces ih =>
    obtain ⟨hpiece, hrest⟩ := List.forall_mem_cons.mp h
    rw [List.map_cons, List.foldlM_cons] at hf
    obtain ⟨next, hstep, hf⟩ := bind_eq_ok.mp hf
    obtain rfl := ih hrest hf
    obtain ⟨-, ⟨-, rfl⟩ | ⟨hup, -⟩ | ⟨hempty, hdot, -⟩⟩ := step_eq_ok.mp hstep
    · rfl
    · rcases hpiece with rfl | rfl <;> exact absurd hup (by decide)
    · rcases hpiece with rfl | rfl
      · exact absurd rfl hempty
      · exact absurd rfl hdot

/-- The start of a path leads to a directory if only idle pieces are left out. -/
theorem resolve_of_idle {start : List Char} {before after : List (List Char)} {last : List Char}
    (hstart : start = joinPieces '/' (before ++ [last])) (hne : start ≠ [])
    (hslash : ∀ p ∈ before ++ [last], '/' ∉ p) (hidle : ∀ p ∈ after, IsIdle p)
    (hroot : tree.start (String.ofList start) = loc)
    (hf : ((before ++ last :: after).map String.ofList).foldlM tree.step loc = .ok dir) :
    tree.resolve (String.ofList start) = .ok dir := by
  have hne' : String.ofList start ≠ "" := fun he => hne (by simpa using congrArg String.toList he)
  have hpieces : piecesOf (String.ofList start) = (before ++ [last]).map String.ofList := by
    rw [piecesOf, Text.piecesOf, String.toList_ofList, hstart, pieces_joinPieces (by simp) hslash]
  rw [resolve_of_ne_empty hne', hpieces, hroot]
  have hsplit : before ++ last :: after = (before ++ [last]) ++ after := by simp
  rw [hsplit, List.map_append, List.foldlM_append] at hf
  obtain ⟨mid, hmid, hf⟩ := bind_eq_ok.mp hf
  rw [← eq_of_foldlM_idle hidle hf]
  exact hmid

/-- Paths with the same beginning start at the same place. -/
theorem start_of_beginning {start rest : List Char} (h : path.toList = start ++ rest)
    (hne : start ≠ []) : tree.start (String.ofList start) = tree.start path := by
  have hiff : (String.ofList start).startsWith "/" = true ↔ path.startsWith "/" = true := by
    obtain ⟨c, cs, rfl⟩ := List.exists_cons_of_ne_nil hne
    rw [startsWith_iff, startsWith_iff, h, String.toList_ofList]
    simp
  simp only [FileTree.start, hiff]

/-- A path with some component before its file name leads to it from its parent. The pieces
`lead` in front are those of the root, if the path begins there. -/
theorem resolve_parentDir (lead : List (List Char)) {front : List (List Char)}
    {leading : List PlacedComponent}
    {first : Bool} {start : Nat} {last : PlacedComponent}
    (hlead : lead = [] ∧ start = 0 ∨ lead = [[]] ∧ start = 1)
    (hpieces : pieces '/' path.toList = lead ++ (front ++ [name.toList]))
    (hc : components path = leading ++ (placeComponents first start front ++ [last]))
    (hroot : last.component ≠ .root) (hsome : placeComponents first start front ≠ [])
    (hfold : ((lead ++ front).map String.ofList).foldlM tree.step (tree.start path) = .ok dir) :
    tree.resolve (parentDir path) = .ok dir := by
  have hslash : ∀ p ∈ lead ++ front, '/' ∉ p := fun p hp => by
    have hmem : p ∈ pieces '/' path.toList := by
      rw [hpieces, ← List.append_assoc]
      exact List.mem_append_left _ hp
    exact notMem_of_mem_pieces hmem
  obtain ⟨hnil, -⟩ | ⟨before, piece, after, c, rfl, hpiece, hidle, hlast⟩ :=
    endsIn_placeComponents first start front
  · exact absurd hnil hsome
  obtain ⟨init, hinit⟩ := List.getLast?_eq_some_iff.mp hlast
  have hpath : path.toList = joinPieces '/' ((lead ++ before) ++ [piece]) ++
      '/' :: joinPieces '/' (after ++ [name.toList]) := by
    rw [← joinPieces_append (by simp) (by simp), ← joinPieces_pieces '/' path.toList, hpieces]
    simp
  have hstop : start + (joinPieces '/' (before ++ [piece])).length =
      (joinPieces '/' ((lead ++ before) ++ [piece])).length := by
    rcases hlead with ⟨rfl, rfl⟩ | ⟨rfl, rfl⟩
    · simp
    · rw [List.singleton_append, List.cons_append, joinPieces_cons (by simp)]
      simp [Nat.add_comm]
  have hne : joinPieces '/' ((lead ++ before) ++ [piece]) ≠ [] := by
    by_cases hn : lead ++ before = []
    · rw [hn]
      exact hpiece
    · rw [joinPieces_append hn (by simp)]
      simp
  have hcomponents : components path = (leading ++ init) ++
      [⟨c, start + (joinPieces '/' (before ++ [piece])).length⟩, last] := by
    rw [hc, hinit]
    simp
  have hparent := parentDir_eq _ hcomponents hroot hpath hstop hne
  rw [hparent]
  refine resolve_of_idle rfl hne (fun p hp => hslash p ?_) hidle (start_of_beginning hpath hne)
    (by simpa using hfold)
  simp only [List.mem_append, List.mem_cons, List.not_mem_nil, or_false] at hp ⊢
  rcases hp with (h | h) | h <;> simp [h]

/-- A path from the root leads to its file name from its parent. -/
theorem resolve_parentDir_of_root (hname : IsEntryName name) {cs : List Char}
    (hroot : path.toList = '/' :: cs) {front : List (List Char)}
    (hpieces : pieces '/' cs = front ++ [name.toList])
    (hfold : (([] :: front).map String.ofList).foldlM tree.step (tree.start path) = .ok dir) :
    tree.resolve (parentDir path) = .ok dir := by
  obtain ⟨stop, hcomponents⟩ := placeComponents_concat hname false 1 front
  have hc : components path = [⟨.root, 1⟩] ++ (placeComponents false 1 front ++
      [⟨.name name, stop⟩]) := by
    rw [components, hroot]
    simp only [hpieces, hcomponents, List.singleton_append]
  by_cases hnil : placeComponents false 1 front = []
  · have hidle : ∀ p ∈ [] :: front, IsIdle p :=
      List.forall_mem_cons.mpr ⟨.inl rfl, (isIdle_of_placeComponents_eq_nil hnil).1⟩
    have hplaced : components path = [] ++ [⟨.root, 1⟩, ⟨.name name, stop⟩] := by
      rw [hc, hnil]
      rfl
    have hparent := parentDir_eq ['/'] hplaced (by simp) hroot rfl (by simp)
    have hstart : tree.start path = [] := if_pos (startsWith_iff.mpr ⟨cs, hroot⟩)
    rw [hstart] at hfold
    have hslash : tree.start (String.ofList ['/']) = [] := if_pos (startsWith_iff.mpr ⟨[], rfl⟩)
    rw [hparent, ← eq_of_foldlM_idle hidle hfold, resolve_of_ne_empty (by decide), hslash]
    rfl
  · have hall : pieces '/' path.toList = [[]] ++ (front ++ [name.toList]) := by
      rw [hroot, show '/' :: cs = [] ++ '/' :: cs from rfl, pieces_append, hpieces]
      rfl
    exact resolve_parentDir [[]] (.inr ⟨rfl, rfl⟩) hall hc (by simp) hnil hfold

/-- A path from the current directory leads to its file name from its parent. -/
theorem resolve_parentDir_of_current (hname : IsEntryName name)
    (hroot : ¬ ∃ cs, path.toList = '/' :: cs) {front : List (List Char)}
    (hpieces : pieces '/' path.toList = front ++ [name.toList])
    (hdir : tree.lookup? dir = some .directory)
    (hfold : (front.map String.ofList).foldlM tree.step (tree.start path) = .ok dir) :
    tree.resolve (parentDir path) = .ok dir := by
  obtain ⟨stop, hcomponents⟩ := placeComponents_concat hname true 0 front
  have hc : components path = [] ++ (placeComponents true 0 front ++ [⟨.name name, stop⟩]) := by
    rw [components]
    split
    · next hcs => exact absurd ⟨_, hcs⟩ hroot
    · rw [hpieces, hcomponents, List.nil_append]
  by_cases hnil : placeComponents true 0 front = []
  · have hfront : front = [] := by
      cases front with
      | nil => rfl
      | cons piece front =>
        -- A first piece without a character means that the path begins with a slash.
        obtain rfl := (isIdle_of_placeComponents_eq_nil hnil).2 rfl piece rfl
        refine absurd ?_ hroot
        exact ⟨_, by rw [← joinPieces_pieces '/' path.toList, hpieces, List.cons_append,
          joinPieces_cons (by simp), List.nil_append]⟩
    subst hfront
    have hparent : parentDir path = "." := by
      rw [parentDir, parent?, hc]
      rfl
    have hstart : tree.start path = tree.current := if_neg fun h => hroot (startsWith_iff.mp h)
    rw [hstart] at hfold
    obtain rfl : tree.current = dir := Except.ok.inj hfold
    have hstep : tree.step tree.current "." = .ok tree.current :=
      step_eq_ok.mpr ⟨hdir, .inl ⟨.inr rfl, rfl⟩⟩
    have hdot : tree.start "." = tree.current :=
      if_neg fun h => by simpa using startsWith_iff.mp h
    rw [hparent, resolve_of_ne_empty (by decide), hdot, show piecesOf "." = ["."] from by decide]
    simpa using hstep
  · exact resolve_parentDir [] (.inl ⟨rfl, rfl⟩) hpieces hc (by simp) hnil hfold

/-- The directory that a path leads to a name in is its parent. -/
theorem Leads.find_parentDir (h : Leads tree path dir name) :
    tree.find (parentDir path) = .ok (dir, .directory) := by
  obtain ⟨hname, hdir, names, hnames, hfold⟩ := h
  refine FileTree.find_eq_ok.mpr ⟨?_, hdir⟩
  obtain ⟨front, back, hpieces, rfl, hback⟩ := List.map_eq_append_iff.mp hnames
  obtain ⟨last, rfl, rfl⟩ := List.map_eq_singleton_iff.mp hback
  replace hpieces : pieces '/' path.toList = front ++ [(String.ofList last).toList] := by
    rw [String.toList_ofList]
    exact hpieces
  by_cases hroot : ∃ cs, path.toList = '/' :: cs
  · obtain ⟨cs, hcs⟩ := hroot
    rw [hcs, show '/' :: cs = [] ++ '/' :: cs from rfl, pieces_append] at hpieces
    cases front with
    | nil => exact absurd (congrArg List.length hpieces) (by simp [pieces, pieces_ne_nil])
    | cons piece front =>
      obtain ⟨rfl, hp⟩ := List.cons.inj hpieces
      exact resolve_parentDir_of_root hname hcs hp hfold
  · exact resolve_parentDir_of_current hname hroot hpieces hdir hfold

end FileTree

end TaggedRows
