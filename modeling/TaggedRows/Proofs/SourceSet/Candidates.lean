import TaggedRows.SourceSet
import TaggedRows.Proofs.Source.Pieces

/-!
# The structs that a source set is searched for

- **Declared structs** (`DeclaredIn`, `DeclaredAt`): where in the tokens of a file a struct is
  declared, and in which inline modules. Nothing but an inline module is looked into.
- **Enumeration** (`Lists`): a list of structs by ascending places in the text. There is at most
  one (`Lists.unique`), and cutting tokens into items gives it (`lists_placedStructs`).
- **Candidates** (`SourceFile.Candidates`): the structs in the text of a file that pass a filter.
-/

namespace TaggedRows

open Source

/-! ## Where structs are declared -/

/-- The item declares the struct, the given number of tokens after its start. -/
inductive DeclaredIn : List Token → Nat → PlacedStruct → Prop where
  /-- The item is the struct. -/
  | struct {piece : List Token} {decl : StructDecl} (h : DeclaresStruct piece decl) :
    DeclaredIn piece 0 ⟨[], decl⟩
  /-- The item is an inline module, and one of the items in it declares the struct. -/
  | module {piece front body inner : List Token} {id : Ident} {before after : List (List Token)}
    {n : Nat} {s : PlacedStruct} (hm : OpensModule piece id front body)
    (hb : itemPieces body = before ++ inner :: after) (h : DeclaredIn inner n s) :
    DeclaredIn piece (front.length + (before.flatten.length + n)) ⟨id :: s.modules, s.decl⟩

/-- One of the items declares the struct, the given number of tokens after the start of the
first. -/
def DeclaredAmong (items : List (List Token)) (n : Nat) (s : PlacedStruct) : Prop :=
  ∃ before piece after k, items = before ++ piece :: after ∧ DeclaredIn piece k s ∧
    n = before.flatten.length + k

/-- The struct is declared the given number of tokens after the start of a body. -/
def DeclaredAt (body : List Token) : Nat → PlacedStruct → Prop :=
  DeclaredAmong (itemPieces body)

theorem declaredAmong_nil (n : Nat) (s : PlacedStruct) : ¬ DeclaredAmong [] n s := by
  rintro ⟨before, piece, after, k, h, -⟩
  simp at h

theorem declaredAmong_cons (piece : List Token) (items : List (List Token)) (n : Nat)
    (s : PlacedStruct) : DeclaredAmong (piece :: items) n s ↔
      DeclaredIn piece n s ∨ ∃ k, DeclaredAmong items k s ∧ n = piece.length + k := by
  constructor
  · rintro ⟨before, inner, after, k, h, hd, rfl⟩
    cases before with
    | nil =>
      simp only [List.nil_append, List.cons.injEq] at h
      obtain ⟨rfl, rfl⟩ := h
      exact .inl (by simpa using hd)
    | cons first before =>
      simp only [List.cons_append, List.cons.injEq] at h
      obtain ⟨rfl, rfl⟩ := h
      refine .inr ⟨_, ⟨before, inner, after, k, rfl, hd, rfl⟩, ?_⟩
      simp only [List.flatten_cons, List.length_append]
      omega
  · rintro (hd | ⟨k, ⟨before, inner, after, j, rfl, hd, rfl⟩, rfl⟩)
    · exact ⟨[], piece, items, n, rfl, hd, by simp⟩
    · refine ⟨piece :: before, inner, after, j, rfl, hd, ?_⟩
      simp only [List.flatten_cons, List.length_append]
      omega

/-- A struct is declared inside the item that declares it. -/
theorem DeclaredIn.lt_length {piece : List Token} {n : Nat} {s : PlacedStruct}
    (h : DeclaredIn piece n s) : n < piece.length := by
  induction h with
  | struct h => exact length_pos_of_declaresStruct h
  | @module piece front body inner id before after n s hm hb h ih =>
    have hlt := hm.length_lt
    have hle := length_flatten_itemPieces_le body
    rw [hb] at hle
    simp only [List.flatten_append, List.flatten_cons, List.length_append] at hle
    omega

/-! ## Enumerations -/

/-- The list has exactly the structs at the places that the relation gives, by ascending places. -/
structure Lists (rel : Nat → PlacedStruct → Prop) (l : List (Nat × PlacedStruct)) : Prop where
  ascending : l.Pairwise (·.1 < ·.1)
  mem_iff : ∀ n s, (n, s) ∈ l ↔ rel n s

namespace Lists

variable {rel : Nat → PlacedStruct → Prop} {l l' : List (Nat × PlacedStruct)}

theorem nodup (h : Lists rel l) : l.Nodup :=
  h.ascending.imp fun hlt he => by simp [he] at hlt

/-- A relation has at most one enumeration. -/
theorem unique (h : Lists rel l) (h' : Lists rel l') : l = l' := by
  have hp : l.Perm l' := by
    rw [List.perm_ext_iff_of_nodup h.nodup h'.nodup]
    rintro ⟨n, s⟩
    rw [h.mem_iff, h'.mem_iff]
  refine hp.eq_of_pairwise ?_ h.ascending h'.ascending
  intro a b _ _ hab hba
  omega

/-- The struct that an item declares. -/
theorem of_declaresStruct {piece : List Token} {decl : StructDecl} (h : DeclaresStruct piece decl) :
    Lists (DeclaredIn piece) [(0, ⟨[], decl⟩)] := by
  refine ⟨by simp, fun n s => ⟨?_, ?_⟩⟩
  · intro hm
    cases List.mem_singleton.mp hm
    exact .struct h
  · intro hd
    cases hd with
    | struct h' => simp [h.unique h']
    | module hm => exact absurd hm (not_opensModule_of_declaresStruct h)

/-- The structs in an inline module are those in its body. -/
theorem of_opensModule {piece front body : List Token} {id : Ident}
    (h : OpensModule piece id front body) (hl : Lists (DeclaredAt body) l) :
    Lists (DeclaredIn piece)
      (l.map fun p => (front.length + p.1, ⟨id :: p.2.modules, p.2.decl⟩)) := by
  refine ⟨?_, fun n s => ⟨?_, ?_⟩⟩
  · rw [List.pairwise_map]
    exact hl.ascending.imp fun hlt => by simpa using hlt
  · intro hm
    obtain ⟨⟨k, s'⟩, hmem, he⟩ := List.mem_map.mp hm
    cases he
    obtain ⟨before, inner, after, j, hb, hd, rfl⟩ := (hl.mem_iff k s').mp hmem
    exact .module h hb hd
  · intro hd
    cases hd with
    | struct h' => exact absurd h (not_opensModule_of_declaresStruct h')
    | @module _ front' body' inner id' before after n s hm hb hd =>
      obtain ⟨rfl, rfl, rfl⟩ := h.unique hm
      refine List.mem_map.mpr ⟨(before.flatten.length + n, s), ?_, rfl⟩
      exact (hl.mem_iff _ _).mpr ⟨before, inner, after, n, hb, hd, rfl⟩

/-- Any other item declares no struct. -/
theorem of_neither {piece : List Token} (hs : ∀ decl, ¬ DeclaresStruct piece decl)
    (hm : ∀ id front body, ¬ OpensModule piece id front body) : Lists (DeclaredIn piece) [] := by
  refine ⟨.nil, fun n s => ⟨fun h => by simp at h, fun hd => ?_⟩⟩
  cases hd with
  | struct h => exact absurd h (hs _)
  | module h => exact absurd h (hm _ _ _)

/-- The structs in a sequence of items are those in the first, and then those in the others. -/
theorem cons {piece : List Token} {items : List (List Token)}
    (hp : Lists (DeclaredIn piece) l) (hi : Lists (DeclaredAmong items) l') :
    Lists (DeclaredAmong (piece :: items))
      (l ++ l'.map fun p => (piece.length + p.1, p.2)) := by
  refine ⟨?_, fun n s => ?_⟩
  · refine List.pairwise_append.mpr ⟨hp.ascending, ?_, ?_⟩
    · rw [List.pairwise_map]
      exact hi.ascending.imp fun hlt => by simpa using hlt
    · rintro ⟨n, s⟩ hn ⟨k, s'⟩ hk
      obtain ⟨⟨j, s''⟩, -, he⟩ := List.mem_map.mp hk
      have hlt := ((hp.mem_iff n s).mp hn).lt_length
      cases he
      simp only
      omega
  · rw [List.mem_append, hp.mem_iff, declaredAmong_cons]
    refine or_congr_right ⟨?_, ?_⟩
    · intro hm
      obtain ⟨⟨k, s'⟩, hmem, he⟩ := List.mem_map.mp hm
      cases he
      exact ⟨k, (hi.mem_iff _ _).mp hmem, rfl⟩
    · rintro ⟨k, hd, rfl⟩
      exact List.mem_map.mpr ⟨(k, s), (hi.mem_iff _ _).mpr hd, rfl⟩

end Lists

/-! ## Reading the items of a file -/

/-- The struct inside further modules. -/
def PlacedStruct.inside (path : List Ident) (s : PlacedStruct) : PlacedStruct :=
  ⟨path ++ s.modules, s.decl⟩

theorem placedStructs_cons (path : List Ident) (item : Item) (items : List Item) :
    placedStructs path (item :: items) =
      placedStructs path [item] ++ placedStructs path items := by
  cases item <;> simp [placedStructs]

/-- Items in the order of the text, read one by one, have the enumerated structs. -/
theorem exists_lists_map (r : List Token → Item) (path : List Ident) {items : List (List Token)}
    (h : ∀ piece ∈ items, ∃ l, Lists (DeclaredIn piece) l ∧
      placedStructs path [r piece] = l.map fun p => p.2.inside path) :
    ∃ l, Lists (DeclaredAmong items) l ∧
      placedStructs path (items.map r) = l.map fun p => p.2.inside path := by
  induction items with
  | nil =>
    refine ⟨[], ⟨.nil, fun n s => ⟨fun h => by simp at h, fun hd => ?_⟩⟩, by simp [placedStructs]⟩
    exact absurd hd (declaredAmong_nil n s)
  | cons piece items ih =>
    obtain ⟨l, hl, he⟩ := h piece (List.mem_cons_self ..)
    obtain ⟨l', hl', he'⟩ := ih fun other ho => h other (List.mem_cons_of_mem _ ho)
    refine ⟨_, hl.cons hl', ?_⟩
    rw [List.map_cons, placedStructs_cons, he, he']
    simp [Function.comp_def]

/-- An item as long as the bound on the depth, or shorter, is read with all its structs. -/
theorem exists_lists_ofTokens {fuel : Nat} {piece : List Token} (h : piece.length ≤ fuel)
    (path : List Ident) : ∃ l, Lists (DeclaredIn piece) l ∧
      placedStructs path [Item.ofTokens fuel piece] = l.map fun p => p.2.inside path := by
  induction fuel generalizing piece path with
  | zero =>
    have hs : ∀ decl, ¬ DeclaresStruct piece decl := fun decl hd => by
      have := length_pos_of_declaresStruct hd
      omega
    have hm : ∀ id front body, ¬ OpensModule piece id front body := fun id front body hd => by
      have := hd.length_lt
      omega
    exact ⟨[], .of_neither hs hm, by simp [Item.ofTokens, placedStructs]⟩
  | succ fuel ih =>
    by_cases hs : ∃ decl, DeclaresStruct piece decl
    · obtain ⟨decl, hd⟩ := hs
      refine ⟨_, .of_declaresStruct hd, ?_⟩
      simp [ofTokens_struct hd, placedStructs, PlacedStruct.inside]
    by_cases hm : ∃ id front body, OpensModule piece id front body
    · obtain ⟨id, front, body, ho⟩ := hm
      have hlt := ho.length_lt
      have hinner : ∀ inner ∈ itemPieces body, ∃ l, Lists (DeclaredIn inner) l ∧
          placedStructs (path ++ [id]) [Item.ofTokens fuel inner] =
            l.map fun p => p.2.inside (path ++ [id]) := by
        intro inner hi
        refine ih ?_ _
        have hin := (List.sublist_flatten_of_mem hi).length_le
        have := length_flatten_itemPieces_le body
        omega
      obtain ⟨l, hl, he⟩ := exists_lists_map _ _ hinner
      refine ⟨_, .of_opensModule ho hl, ?_⟩
      rw [ofTokens_module ho]
      simp [placedStructs, he, PlacedStruct.inside, Function.comp_def]
    · have hs : ∀ decl, ¬ DeclaresStruct piece decl := fun decl hd => hs ⟨decl, hd⟩
      have hm : ∀ id front body, ¬ OpensModule piece id front body :=
        fun id front body ho => hm ⟨id, front, body, ho⟩
      refine ⟨[], .of_neither hs hm, ?_⟩
      rcases ofTokens_other (fuel + 1) hs hm with he | ⟨id, he⟩ <;>
        simp [he, placedStructs]

/-! ## The candidates of a file -/

/-- The items of the file were read from source text. -/
def SourceFile.IsRead (file : SourceFile) : Prop :=
  ∃ ts, itemsOfTokens? ts = some file.items

/-- The structs in the text of a file that pass a filter by name, in the order of the text. -/
def SourceFile.Candidates (file : SourceFile) (wanted : Option String)
    (structs : List PlacedStruct) : Prop :=
  ∃ ts l, itemsOfTokens? ts = some file.items ∧
    Lists (DeclaredAt (dropInnerAttributes ts)) l ∧
    structs = (l.map (·.2)).filter (·.named wanted)

theorem lists_placedStructs {ts : List Token} {items : List Item}
    (h : itemsOfTokens? ts = some items) :
    ∃ l, Lists (DeclaredAt (dropInnerAttributes ts)) l ∧ placedStructs [] items = l.map (·.2) := by
  unfold itemsOfTokens? at h
  split at h
  · obtain ⟨body, hb, hp⟩ := Option.bind_eq_some_iff.mp h
    obtain ⟨chunks, hc, rfl⟩ := Option.map_eq_some_iff.mp hp
    have hd : dropInnerAttributes ts = body := by simp [dropInnerAttributes, hb]
    have hi : itemPieces body = chunks := by simp [itemPieces, hc]
    have hpiece : ∀ piece ∈ chunks, ∃ l, Lists (DeclaredIn piece) l ∧
        placedStructs [] [Item.ofTokens ts.length piece] = l.map fun p => p.2.inside [] := by
      intro piece hm
      refine exists_lists_ofTokens ?_ []
      have hin := (List.sublist_flatten_of_mem hm).length_le
      rw [flatten_pieces hc] at hin
      exact Nat.le_trans hin (takeForm?_suffix hb).length_le
    obtain ⟨l, hl, he⟩ := exists_lists_map _ _ hpiece
    refine ⟨l, ?_, by simp [he, PlacedStruct.inside]⟩
    rw [hd]
    unfold DeclaredAt
    rwa [hi]
  · cases h

/-- The candidates of a file are the structs that the reading of its items finds. -/
theorem SourceFile.candidates_iff {file : SourceFile} (h : file.IsRead) (wanted : Option String)
    (structs : List PlacedStruct) : file.Candidates wanted structs ↔
      structs = (placedStructs [] file.items).filter (·.named wanted) := by
  constructor
  · rintro ⟨ts, l, hi, hl, rfl⟩
    obtain ⟨l', hl', he⟩ := lists_placedStructs hi
    rw [he, hl.unique hl']
  · rintro rfl
    obtain ⟨ts, hi⟩ := h
    obtain ⟨l, hl, he⟩ := lists_placedStructs hi
    exact ⟨ts, l, hi, hl, by rw [he]⟩

end TaggedRows
