import TaggedRows.Source.Item

/-!
# Cutting tokens into items

- **What a form takes** (`takeForm?_suffix`): following a form only drops tokens at the front, so
  what `split?` gives is put together to what it was given (`append_of_split?`).
- **Pieces** (`flatten_pieces`): pieces without separators are a partition of the tokens in order.
- **Depth** (`ofTokens_module`, `ofTokens_struct`, `ofTokens_other`): what an item is depends on the
  words after its attributes and its visibility (`itemCore`). An inline module is longer than what
  it encloses (`OpensModule.length_lt`), so that the number of tokens bounds the depth.
-/

namespace TaggedRows

namespace Form

variable {P : Type}

/-- What remains after an accepted form ends the sequence. -/
theorem run_suffix {grammar : P → Form P} {n : Nat} {f : Form P} {ts rest : List Token}
    (h : run grammar n f ts = .accepted rest) : rest <:+ ts := by
  induction n generalizing f ts rest with
  | zero => simp [run] at h
  | succ n ih =>
    cases f with
    | empty =>
      simp only [run, Outcome.accepted.injEq] at h
      exact h ▸ List.suffix_refl _
    | refuse => simp [run] at h
    | token c =>
      cases ts with
      | nil => simp [run] at h
      | cons t ts =>
        simp only [run] at h
        split at h
        · cases h
          exact List.suffix_cons t _
        · cases h
    | seq a b =>
      simp only [run] at h
      split at h
      · next mid ha => exact (ih h).trans (ih ha)
      · next hne => exact absurd h (hne _)
    | ite test a b =>
      simp only [run] at h
      split at h
      · exact ih h
      · exact ih h
      · cases h
    | loop test body =>
      simp only [run] at h
      split at h
      · split at h
        · next mid hb => exact (ih h).trans (ih hb)
        · next hne => exact absurd h (hne _)
      · cases h
        exact List.suffix_refl _
      · cases h
    | phrase p => exact ih (by simpa only [run] using h)

/-- A token that is accepted comes first. -/
theorem run_token_accepted {grammar : P → Form P} {n : Nat} {c : TokenClass}
    {ts rest : List Token} (h : run grammar n (.token c) ts = .accepted rest) :
    ∃ t, ts = t :: rest ∧ c.admits t := by
  cases n with
  | zero => simp [run] at h
  | succ n =>
    cases ts with
    | nil => simp [run] at h
    | cons t ts =>
      simp only [run] at h
      split at h
      · next ha =>
        cases h
        exact ⟨t, rfl, ha⟩
      · cases h

end Form

namespace Source

theorem takeForm?_suffix {f : SForm} {ts rest : List Token} (h : takeForm? f ts = some rest) :
    rest <:+ ts := by
  unfold takeForm? Form.rest? at h
  split at h
  · next hr =>
    cases h
    exact Form.run_suffix hr
  · cases h

theorem takeForm?_getD_suffix (f : SForm) (ts : List Token) :
    (takeForm? f ts).getD ts <:+ ts := by
  cases h : takeForm? f ts with
  | none => exact List.suffix_refl ts
  | some rest => exact takeForm?_suffix h

theorem append_of_split? {f : SForm} {ts piece rest : List Token}
    (h : split? f ts = some (piece, rest)) : piece ++ rest = ts := by
  unfold split? at h
  obtain ⟨rest', hr, he⟩ := Option.map_eq_some_iff.mp h
  obtain ⟨front, rfl⟩ := takeForm?_suffix hr
  simp only [List.length_append, Nat.add_sub_cancel, List.take_left, Prod.mk.injEq] at he
  obtain ⟨rfl, rfl⟩ := he
  rfl

/-- Pieces without separators are all the tokens in order. -/
theorem flatten_pieces {f : SForm} {fuel : Nat} {ts : List Token} {ps : List (List Token)}
    (h : pieces f false fuel ts = some ps) : ps.flatten = ts := by
  induction fuel generalizing ts ps with
  | zero =>
    cases ts with
    | nil =>
      simp only [pieces, Option.some.injEq] at h
      simp [← h]
    | cons t ts => simp [pieces] at h
  | succ fuel ih =>
    cases ts with
    | nil =>
      simp only [pieces, Option.some.injEq] at h
      simp [← h]
    | cons t ts =>
      unfold pieces at h
      obtain ⟨⟨piece, rest⟩, hs, hr⟩ := Option.bind_eq_some_iff.mp h
      obtain ⟨more, hm, rfl⟩ := Option.map_eq_some_iff.mp hr
      rw [List.flatten_cons, ih hm]
      exact append_of_split? hs

/-! ## The words of an item -/

/-- An item without its attributes and its visibility. -/
def itemCore (piece : List Token) : List Token :=
  dropVisibility (takeAttributes piece.length piece).2

/-- The pieces that the body of a file or of a module is cut into. -/
def itemPieces (body : List Token) : List (List Token) :=
  (pieces (.phrase .item) false body.length body).getD []

/-- What is enclosed in a file or in a module, without the attributes that it begins with. -/
def dropInnerAttributes (ts : List Token) : List Token :=
  (takeForm? innerAttributes ts).getD ts

/-- The item is the declaration of a struct. -/
def DeclaresStruct (piece : List Token) (decl : StructDecl) : Prop :=
  ∃ ts, itemCore piece = .kw "struct" :: ts ∧ StructDecl.ofTokens? ts = some decl

/-- The item is an inline module with the given body, after the tokens `front`. -/
def OpensModule (piece : List Token) (id : Ident) (front body : List Token) : Prop :=
  ∃ marks content last, (marks = [] ∨ marks = [.kw "unsafe"]) ∧
    itemCore piece = marks ++ .kw "mod" :: .word id :: .opening .brace :: (content ++ [last]) ∧
    body = dropInnerAttributes content ∧ piece = front ++ body ++ [last]

theorem takeAttributes_suffix (n : Nat) (ts : List Token) : (takeAttributes n ts).2 <:+ ts := by
  fun_induction takeAttributes n ts with
  | case1 fuel j ts content rest hs as rest' hr ih =>
    rw [hr] at ih
    have h : rest <:+ ts := ⟨content, append_of_split? hs⟩
    exact (ih.trans h).trans (List.suffix_cons _ _)
  | case2 => exact List.suffix_refl _
  | case3 => exact List.suffix_refl _

theorem itemCore_suffix (piece : List Token) : itemCore piece <:+ piece :=
  (takeForm?_getD_suffix visibility _).trans (takeAttributes_suffix _ _)

/-- An inline module is longer than its body. -/
theorem OpensModule.length_lt {piece front body : List Token} {id : Ident}
    (h : OpensModule piece id front body) : front.length + body.length < piece.length := by
  obtain ⟨_, _, _, _, _, _, rfl⟩ := h
  simp

theorem length_pos_of_declaresStruct {piece : List Token} {decl : StructDecl}
    (h : DeclaresStruct piece decl) : 0 < piece.length := by
  obtain ⟨ts, hts, _⟩ := h
  have hl := (itemCore_suffix piece).length_le
  simp only [hts, List.length_cons] at hl
  omega

theorem length_flatten_itemPieces_le (body : List Token) :
    (itemPieces body).flatten.length ≤ body.length := by
  unfold itemPieces
  cases h : pieces (.phrase .item) false body.length body with
  | none => simp
  | some ps => simp [flatten_pieces h]

/-- What follows the word `mod` does not depend on how the words before it are told apart. -/
theorem moduleMarks_cancel {marks marks' ts ts' : List Token}
    (hk : marks = [] ∨ marks = [.kw "unsafe"]) (hk' : marks' = [] ∨ marks' = [.kw "unsafe"])
    (h : marks ++ .kw "mod" :: ts = marks' ++ .kw "mod" :: ts') : ts = ts' := by
  rcases hk with rfl | rfl <;> rcases hk' with rfl | rfl <;>
    simp_all [Token.kw, Ident.plain]

/-- An item opens at most one module. -/
theorem OpensModule.unique {piece front front' body body' : List Token} {id id' : Ident}
    (h : OpensModule piece id front body) (h' : OpensModule piece id' front' body') :
    id = id' ∧ front = front' ∧ body = body' := by
  obtain ⟨marks, content, last, hk, hc, rfl, hp⟩ := h
  obtain ⟨marks', content', last', hk', hc', rfl, hp'⟩ := h'
  have he := moduleMarks_cancel hk hk' (hc.symm.trans hc')
  simp only [List.cons.injEq, Token.word.injEq, true_and] at he
  obtain ⟨rfl, he⟩ := he
  obtain ⟨rfl, hlast⟩ := List.append_inj' he rfl
  rw [← hlast, hp] at hp'
  exact ⟨rfl, List.append_cancel_right (List.append_cancel_right hp'), rfl⟩

theorem not_opensModule_of_declaresStruct {piece front body : List Token} {decl : StructDecl}
    {id : Ident} (h : DeclaresStruct piece decl) : ¬ OpensModule piece id front body := by
  rintro ⟨marks, content, last, hk, hc, -, -⟩
  obtain ⟨ts, hts, -⟩ := h
  rw [hts] at hc
  rcases hk with rfl | rfl <;> simp [Token.kw, Ident.plain] at hc

/-- An item declares at most one struct. -/
theorem DeclaresStruct.unique {piece : List Token} {decl decl' : StructDecl}
    (h : DeclaresStruct piece decl) (h' : DeclaresStruct piece decl') : decl = decl' := by
  obtain ⟨ts, hts, hd⟩ := h
  obtain ⟨ts', hts', hd'⟩ := h'
  rw [hts] at hts'
  cases hts'
  rw [hd] at hd'
  exact Option.some.inj hd'

/-! ## Reading an item -/

/-- The words of an inline module open it. -/
theorem opensModule_of_core {piece marks content : List Token} {id : Ident} {last : Token}
    (hk : marks = [] ∨ marks = [.kw "unsafe"])
    (hc : itemCore piece =
      marks ++ .kw "mod" :: .word id :: .opening .brace :: (content ++ [last])) :
    ∃ front, OpensModule piece id front (dropInnerAttributes content) := by
  obtain ⟨before, hp⟩ := itemCore_suffix piece
  obtain ⟨inner, hi⟩ := takeForm?_getD_suffix innerAttributes content
  have hi : inner ++ dropInnerAttributes content = content := hi
  refine ⟨before ++ (marks ++ .kw "mod" :: .word id :: .opening .brace :: inner),
    marks, content, last, hk, hc, rfl, ?_⟩
  rw [← hp, hc]
  conv => lhs; rw [← hi]
  simp only [List.append_assoc, List.cons_append]

/-- A struct is read as its declaration. -/
theorem ofTokens_struct {fuel : Nat} {piece : List Token} {decl : StructDecl}
    (h : DeclaresStruct piece decl) : Item.ofTokens (fuel + 1) piece = .struct decl := by
  obtain ⟨ts, hts, hd⟩ := h
  unfold itemCore at hts
  simp only [Item.ofTokens, hts, Token.kw, Ident.plain, hd]
  rfl

/-- An inline module is read as the items in its body. -/
theorem ofTokens_module {fuel : Nat} {piece front body : List Token} {id : Ident}
    (h : OpensModule piece id front body) : Item.ofTokens (fuel + 1) piece =
      .module id ((itemPieces body).map (Item.ofTokens fuel)) := by
  obtain ⟨marks, content, last, hk, hc, rfl, -⟩ := h
  unfold itemCore at hc
  have hi : inside (.opening .brace :: (content ++ [last])) = content := by simp [inside]
  rcases hk with rfl | rfl <;>
    simp only [Item.ofTokens, hc, Token.kw, Ident.plain, List.nil_append, List.cons_append,
      Item.ofTokens.module, hi, itemPieces, dropInnerAttributes]

/-- Anything else is no item that matters, or a module without items. -/
theorem ofTokens_other (fuel : Nat) {piece : List Token}
    (hs : ∀ decl, ¬ DeclaresStruct piece decl)
    (hm : ∀ id front body, ¬ OpensModule piece id front body) :
    Item.ofTokens fuel piece = .other ∨ ∃ id, Item.ofTokens fuel piece = .module id [] := by
  have hmod : ∀ {marks ts : List Token} {id : Ident},
      (marks = [] ∨ marks = [.kw "unsafe"]) →
      itemCore piece = marks ++ .kw "mod" :: .word id :: ts →
      ∀ fuel, Item.ofTokens.module id ts fuel = .other ∨
        ∃ id', Item.ofTokens.module id ts fuel = .module id' [] := by
    intro marks ts id hk hc fuel
    unfold Item.ofTokens.module
    split
    · next rest =>
      cases hr : rest.isEmpty with
      | true =>
        rw [List.isEmpty_iff.mp hr]
        refine .inr ⟨id, ?_⟩
        have hn : (takeForm? innerAttributes []).getD [] = [] :=
          List.eq_nil_of_suffix_nil (takeForm?_getD_suffix innerAttributes [])
        simp [inside, hn, pieces]
      | false =>
        have hne : rest ≠ [] := by simpa using hr
        rw [← List.dropLast_concat_getLast hne] at hc
        obtain ⟨front, hf⟩ := opensModule_of_core hk hc
        exact absurd hf (hm _ _ _)
    · exact .inl rfl
  cases fuel with
  | zero => exact .inl (by simp only [Item.ofTokens])
  | succ fuel =>
    unfold Item.ofTokens
    split
    · next ts hc =>
      cases hd : StructDecl.ofTokens? ts with
      | none => exact .inl rfl
      | some decl => exact absurd ⟨ts, hc, hd⟩ (hs decl)
    · next id ts hc => exact hmod (.inl rfl) hc fuel
    · next id ts hc => exact hmod (.inr rfl) hc fuel
    · exact .inl rfl

end Source

end TaggedRows
