import TaggedRows.Proofs.Source.Heads
import TaggedRows.Proofs.Source.Rereading
import TaggedRows.Proofs.SourceSet.Scan

/-!
# The names that are read from a source file

The grammar of a file says which words stand as the names of its structs, fields and modules: a
struct has a name, a field has a name or the placeholder, and a module has a name or is called
`try`. All of them are words of the text.

- **Items** (`Source.follow_itemCore`): what is left of an item is a declaration.
- **Structs** (`Source.DeclaresStruct.hasNames`): a struct and its fields.
- **Places** (`DeclaredIn.hasNames`): a struct and the modules around it.
- **Files** (`SourceFile.IsParsed`, `SourceFile.IsParsed.hasNames`): all structs of a file that was
  read from a text.
-/

namespace TaggedRows

namespace Source

open Form

variable {piece ts rest : List Token} {id : Ident}

/-! ## Items -/

/-- The grammar took the tokens for the phrase. -/
def IsTaken (p : Phrase) (piece : List Token) : Prop :=
  ∃ rest, follow (.phrase p) (piece ++ rest) = .accepted rest

theorem isTaken_of_pieces {p : Phrase} {sep : Bool} {fuel : Nat} {ps : List (List Token)}
    (h : pieces (.phrase p) sep fuel ts = some ps) : ∀ piece ∈ ps, IsTaken p piece := by
  induction fuel generalizing ts ps with
  | zero =>
    cases ts with
    | nil =>
      cases h
      exact nofun
    | cons => cases h
  | succ fuel ih =>
    cases ts with
    | nil =>
      cases h
      exact nofun
    | cons t ts =>
      obtain ⟨⟨first, rest⟩, hsplit, hmap⟩ := Option.bind_eq_some_iff.mp h
      obtain ⟨more, hmore, rfl⟩ := Option.map_eq_some_iff.mp hmap
      refine List.forall_mem_cons.mpr ⟨⟨rest, ?_⟩, ih hmore⟩
      rw [append_of_split? hsplit]
      obtain ⟨rest', htake, heq⟩ := Option.map_eq_some_iff.mp hsplit
      cases heq
      exact follow_of_takeForm? htake

/-- A declaration that nothing else may stand for begins with a word, and with no visibility. -/
theorem word_of_follow_declaration (h : follow (declaration .refuse) ts = .accepted rest) :
    ∃ id X, ts = .word id :: X ∧ id ≠ .plain "pub" := by
  have hnone : ∀ ts, follow (declaration .refuse) ts = .refused →
      follow (declaration .refuse) ts ≠ .accepted rest := fun ts hts h => by
    rw [hts] at h
    cases h
  cases ts with
  | nil => exact absurd h (hnone _ (follow_of_run (n := 60) rfl (by simp)))
  | cons t ts =>
    cases t with
    | word id =>
      refine ⟨id, ts, rfl, ?_⟩
      rintro rfl
      exact absurd h (hnone _ (follow_of_run (n := 60) rfl (by simp)))
    | _ => exact absurd h (hnone _ (follow_of_run (n := 60) rfl (by simp)))

/-- An item without its attributes and its visibility is a declaration. -/
theorem follow_itemCore (h : follow (.phrase .item) (piece ++ rest) = .accepted rest) :
    ∃ otherwise, follow (declaration otherwise) (itemCore piece ++ rest) = .accepted rest := by
  rw [follow_phrase] at h
  change follow (.seq outerAttributes (.phrase .itemBody)) _ = _ at h
  rw [follow_seq] at h
  obtain ⟨mid, hattributes, hbody⟩ := Outcome.andThen_eq_accepted.mp h
  obtain ⟨X, rfl⟩ := suffix_of_follow hbody
  have hlt := length_lt_of_follow rfl hbody
  cases X with
  | nil => simp at hlt
  | cons t X =>
    have hcore : itemCore piece = dropVisibility (t :: X) := by
      rw [itemCore, takeAttributes_of_follow hattributes]
    rw [hcore]
    rw [follow_phrase] at hbody
    change follow itemBodyForm _ = _ at hbody
    rw [itemBodyForm, follow_ite] at hbody
    rcases Outcome.branch_eq_accepted.mp hbody with ⟨-, hbody⟩ | ⟨hpub, hbody⟩
    · rw [follow_seq] at hbody
      obtain ⟨mid, hvisibility, hdeclaration⟩ := Outcome.andThen_eq_accepted.mp hbody
      obtain ⟨id, Y, rfl, hid⟩ := word_of_follow_declaration hdeclaration
      obtain ⟨Z, hZ⟩ := suffix_of_follow hdeclaration
      have hlt := length_lt_of_follow (by decide) hdeclaration
      cases Z with
      | nil =>
        rw [← hZ] at hlt
        simp at hlt
      | cons u Z =>
        obtain ⟨rfl, rfl⟩ := List.cons.inj hZ
        rw [dropVisibility_append rest hvisibility hid]
        exact ⟨.refuse, hdeclaration⟩
    · have hno : follow visibility (t :: X) = .accepted (t :: X) := by
        have hpub' : follow (kw "pub") (t :: X) = .refused := follow_token_refused hpub X
        rw [visibility, follow_optIf, hpub', Outcome.branch_refused]
      have hsettles : settles visibility = true := by decide
      rw [dropVisibility, (takeForm?_eq_some hsettles).mpr hno]
      exact ⟨_, hbody⟩

/-! ## Declarations -/

/-- The word that stands as a name. -/
theorem of_follow_name (h : follow name ts = .accepted rest) :
    ∃ id : Ident, ts = .word id :: rest ∧ id.IsName := by
  obtain ⟨t, rfl, ht⟩ := of_follow_token h
  cases t with
  | word id => exact ⟨id, rfl, by simpa [TokenClass.admits, Ident.IsName] using ht⟩
  | _ => cases ht

theorem name_of_struct {otherwise : SForm}
    (h : follow (declaration otherwise) (Token.kw "struct" :: .word id :: ts) = .accepted rest) :
    id.IsName := by
  have hstruct : ∀ X, follow (kw "struct") (Token.kw "struct" :: X) = .accepted X :=
    fun X => follow_of_run (n := 9) rfl (by simp)
  rw [declaration, follow_cases_at 11 20 rfl rfl (hstruct _), structItem, follow_list_cons,
    hstruct, Outcome.andThen_accepted, follow_list_cons] at h
  obtain ⟨mid, hname, -⟩ := Outcome.andThen_eq_accepted.mp h
  obtain ⟨id', heq, hid⟩ := of_follow_name hname
  cases heq
  exact hid

theorem name_of_module {otherwise : SForm} {marks : List Token}
    (hmarks : marks = [] ∨ marks = [Token.kw "unsafe"])
    (h : follow (declaration otherwise) (marks ++ Token.kw "mod" :: .word id :: ts) =
      .accepted rest) : id.IsName ∨ id = .plain "try" := by
  have hstart : follow (oneOf [.seq (kw "unsafe") (kw "mod"), kw "mod"])
      (marks ++ Token.kw "mod" :: .word id :: ts) = .accepted (.word id :: ts) := by
    rcases hmarks with rfl | rfl <;> exact follow_of_run (n := 9) rfl (by simp)
  have hitem : follow (declaration otherwise) (marks ++ Token.kw "mod" :: .word id :: ts) =
      follow moduleItem (marks ++ Token.kw "mod" :: .word id :: ts) := by
    rcases hmarks with rfl | rfl <;> exact follow_cases_at 9 20 rfl rfl hstart
  have hopen : follow (opt (kw "unsafe")) (marks ++ Token.kw "mod" :: .word id :: ts) =
      .accepted (Token.kw "mod" :: .word id :: ts) := by
    rcases hmarks with rfl | rfl <;> exact follow_of_run (n := 9) rfl (by simp)
  have hmod : follow (kw "mod") (Token.kw "mod" :: .word id :: ts) = .accepted (.word id :: ts) :=
    follow_of_run (n := 9) rfl (by simp)
  rw [hitem, moduleItem, follow_list_cons, hopen, Outcome.andThen_accepted, follow_list_cons, hmod,
    Outcome.andThen_accepted, follow_list_cons] at h
  obtain ⟨mid, hname, -⟩ := Outcome.andThen_eq_accepted.mp h
  rw [follow_ite] at hname
  rcases Outcome.branch_eq_accepted.mp hname with ⟨-, htry⟩ | ⟨-, hname⟩
  · cases of_follow_kw htry
    exact .inr rfl
  · obtain ⟨id', heq, hid⟩ := of_follow_name hname
    cases heq
    exact .inl hid

/-! ## Fields -/

theorem fieldName_of_taken {decl : FieldDecl} (htaken : IsTaken .field piece)
    (h : FieldDecl.ofTokens? piece = some decl) : decl.ident.IsFieldName := by
  obtain ⟨rest, hform⟩ := htaken
  rw [follow_phrase] at hform
  change follow fieldForm _ = _ at hform
  rw [fieldForm, follow_list_cons] at hform
  obtain ⟨mid, hattributes, hform⟩ := Outcome.andThen_eq_accepted.mp hform
  rw [follow_list_cons] at hform
  obtain ⟨mid', hvisibility, hform⟩ := Outcome.andThen_eq_accepted.mp hform
  rw [follow_list_cons] at hform
  obtain ⟨later, hname, htype⟩ := Outcome.andThen_eq_accepted.mp hform
  obtain ⟨id, rfl, hid⟩ : ∃ id : Ident, mid' = .word id :: later ∧ id.IsFieldName := by
    rw [nameOrUnderscore, follow_ite] at hname
    rcases Outcome.branch_eq_accepted.mp hname with ⟨-, hname⟩ | ⟨-, hname⟩
    · exact ⟨_, of_follow_kw hname, .inr rfl⟩
    · obtain ⟨id, heq, hid⟩ := of_follow_name hname
      exact ⟨id, heq, .inl hid⟩
  obtain ⟨Y, rfl⟩ := suffix_of_follow htype
  obtain ⟨X, rfl⟩ := ((List.suffix_append Y rest).trans (List.suffix_cons (.word id) _)).trans
    (suffix_of_follow hvisibility)
  have hpub : id ≠ .plain "pub" := by
    rintro rfl
    rcases hid with hid | hid
    · cases hid
    · exact absurd hid (by decide)
  cases X with
  | nil =>
    have hlength := (suffix_of_follow hvisibility).length_le
    simp only [List.length_cons, List.length_append, List.length_nil] at hlength
    omega
  | cons t X =>
    have htokens := h
    rw [FieldDecl.ofTokens?] at htokens
    simp only [takeAttributes_of_follow hattributes,
      dropVisibility_append rest hvisibility hpub] at htokens
    split at htokens
    · next heq =>
      cases heq
      cases htokens
      exact hid
    · cases htokens

/-! ## Structs -/

/-- The fields with names. -/
def Fields.decls : Fields → List FieldDecl
  | .named fields => fields
  | .positional => []

/-- The names of the struct and of its fields are such words of the text. -/
structure StructDecl.HasNames (decl : StructDecl) (ts : List Token) : Prop where
  ident : decl.ident.IsName ∧ .word decl.ident ∈ ts
  fields : ∀ field ∈ decl.fields.decls, field.ident.IsFieldName ∧ .word field.ident ∈ ts

theorem StructDecl.HasNames.mono {decl : StructDecl} (h : decl.HasNames ts) {us : List Token}
    (hsub : ts ⊆ us) : decl.HasNames us :=
  ⟨⟨h.ident.1, hsub h.ident.2⟩, fun field hfield =>
    ⟨(h.fields field hfield).1, hsub (h.fields field hfield).2⟩⟩

theorem word_mem_of_fieldTokens {decl : FieldDecl} (h : FieldDecl.ofTokens? piece = some decl) :
    .word decl.ident ∈ piece := by
  have hsuffix := (takeForm?_getD_suffix visibility _).trans
    (takeAttributes_suffix piece.length piece)
  rw [FieldDecl.ofTokens?] at h
  simp only at h
  split at h
  · next heq =>
    cases h
    rw [← dropVisibility, heq] at hsuffix
    exact hsuffix.subset List.mem_cons_self
  · cases h

theorem exists_of_mem_fields {ps : List (List Token)} {fs : List FieldDecl}
    (h : ps.mapM FieldDecl.ofTokens? = some fs) {field : FieldDecl} (hfield : field ∈ fs) :
    ∃ piece ∈ ps, FieldDecl.ofTokens? piece = some field := by
  induction ps generalizing fs with
  | nil =>
    cases h
    cases hfield
  | cons piece ps ih =>
    rw [List.mapM_cons] at h
    obtain ⟨first, hfirst, h⟩ := Option.bind_eq_some_iff.mp h
    obtain ⟨more, hmore, h⟩ := Option.bind_eq_some_iff.mp h
    cases h
    rcases List.mem_cons.mp hfield with rfl | hfield
    · exact ⟨piece, List.mem_cons_self, hfirst⟩
    · obtain ⟨other, hother, heq⟩ := ih hmore hfield
      exact ⟨other, List.mem_cons_of_mem piece hother, heq⟩

/-- All pieces are parts of the tokens. -/
theorem subset_of_pieces {f : SForm} {sep : Bool} {fuel : Nat} {ps : List (List Token)}
    (h : pieces f sep fuel ts = some ps) : ∀ piece ∈ ps, piece ⊆ ts := by
  induction fuel generalizing ts ps with
  | zero =>
    cases ts with
    | nil =>
      cases h
      exact nofun
    | cons => cases h
  | succ fuel ih =>
    cases ts with
    | nil =>
      cases h
      exact nofun
    | cons t ts =>
      obtain ⟨⟨first, rest⟩, hsplit, hmap⟩ := Option.bind_eq_some_iff.mp h
      obtain ⟨more, hmore, rfl⟩ := Option.map_eq_some_iff.mp hmap
      rw [← append_of_split? hsplit]
      refine List.forall_mem_cons.mpr ⟨List.subset_append_left .., fun piece hpiece => ?_⟩
      refine List.Subset.trans (ih hmore piece hpiece) ?_
      refine List.Subset.trans ?_ (List.subset_append_right ..)
      cases sep
      · exact List.Subset.refl rest
      · exact List.drop_subset 1 rest

/-- What is read of a struct behind its name: named fields come from the pieces of its body. -/
theorem of_structTokens {decl : StructDecl} (h : StructDecl.ofTokens? ts = some decl) :
    ∃ later, ts = .word decl.ident :: later ∧ (decl.fields = .positional ∨
      ∃ body ps fs, body ⊆ later ∧ pieces (.phrase .field) true body.length body = some ps ∧
        ps.mapM FieldDecl.ofTokens? = some fs ∧ decl.fields = .named fs) := by
  unfold StructDecl.ofTokens? at h
  split at h
  · next id ts =>
    obtain ⟨⟨params, ts'⟩, hparams, h⟩ := Option.bind_eq_some_iff.mp h
    have hsub : ts' ⊆ ts := (append_of_split? hparams) ▸ List.subset_append_right params ts'
    -- The fields are read from what stands behind the conditions.
    have hpositional : some ⟨id, decide (2 < params.length), .positional⟩ = some decl →
        decl.ident = id ∧ decl.fields = .positional := by
      intro hread
      cases hread
      exact ⟨rfl, rfl⟩
    have hnamed : ∀ {us : List Token}, us ⊆ ts' → (do
          let body := inside us
          let fields ← ((← pieces (.phrase .field) true body.length body).mapM
            FieldDecl.ofTokens?).map Fields.named
          return ⟨id, 2 < params.length, fields⟩) = some decl →
        decl.ident = id ∧ ∃ body ps fs, body ⊆ ts ∧
          pieces (.phrase .field) true body.length body = some ps ∧
          ps.mapM FieldDecl.ofTokens? = some fs ∧ decl.fields = .named fs := by
      intro us hus hread
      obtain ⟨ps, hps, hread⟩ := Option.bind_eq_some_iff.mp hread
      obtain ⟨fields, hmap, hread⟩ := Option.bind_eq_some_iff.mp hread
      obtain ⟨fs, hfs, rfl⟩ := Option.map_eq_some_iff.mp hmap
      cases hread
      refine ⟨rfl, _, ps, fs, ?_, hps, hfs, rfl⟩
      refine List.Subset.trans (List.dropLast_subset _) ?_
      exact List.Subset.trans (List.drop_subset 1 _) (List.Subset.trans hus hsub)
    suffices hdecl : decl.ident = id ∧ _ from ⟨ts, by rw [hdecl.1], hdecl.2⟩
    simp only at h
    split at h
    · obtain ⟨us, heq, h⟩ := Option.bind_eq_some_iff.mp h
      cases heq
      split at h
      · exact (hnamed (List.Subset.refl _) h).imp_right .inr
      · exact (hpositional h).imp_right .inl
    · obtain ⟨us, hwhere, h⟩ := Option.bind_eq_some_iff.mp h
      split at h
      · exact (hnamed (takeForm?_suffix hwhere).subset h).imp_right .inr
      · exact (hpositional h).imp_right .inl
  · cases h

/-- The names of a struct that the grammar took. -/
theorem DeclaresStruct.hasNames {decl : StructDecl} (htaken : IsTaken .item piece)
    (h : DeclaresStruct piece decl) : decl.HasNames piece := by
  obtain ⟨ts, hcore, hdecl⟩ := h
  obtain ⟨rest, hform⟩ := htaken
  obtain ⟨otherwise, hform⟩ := follow_itemCore hform
  have hsub : ts ⊆ piece := fun t ht =>
    (itemCore_suffix piece).subset (hcore ▸ List.mem_cons_of_mem _ ht)
  rw [hcore] at hform
  obtain ⟨later, rfl, hfields⟩ := of_structTokens hdecl
  refine StructDecl.HasNames.mono ⟨⟨name_of_struct hform, List.mem_cons_self⟩, ?_⟩ hsub
  obtain hnone | ⟨body, ps, fs, hbody, hps, hfs, hnamed⟩ := hfields
  · rw [hnone]
    exact nofun
  · rw [hnamed]
    intro field hfield
    obtain ⟨part, hpart, hread⟩ := exists_of_mem_fields hfs hfield
    refine ⟨fieldName_of_taken (isTaken_of_pieces hps part hpart) hread, ?_⟩
    exact List.mem_cons_of_mem _
      (hbody (subset_of_pieces hps part hpart (word_mem_of_fieldTokens hread)))

theorem OpensModule.name {front body : List Token} (htaken : IsTaken .item piece)
    (h : OpensModule piece id front body) :
    (id.IsName ∨ id = .plain "try") ∧ .word id ∈ piece ∧ body ⊆ piece := by
  obtain ⟨marks, content, last, hmarks, hcore, rfl, heq⟩ := h
  obtain ⟨rest, hform⟩ := htaken
  obtain ⟨otherwise, hform⟩ := follow_itemCore hform
  rw [hcore, List.append_assoc] at hform
  refine ⟨name_of_module hmarks hform, (itemCore_suffix piece).subset ?_, ?_⟩
  · rw [hcore]
    simp
  · rw [heq]
    simp

theorem isTaken_of_mem_itemPieces {body : List Token} (hpiece : piece ∈ itemPieces body) :
    IsTaken .item piece ∧ piece ⊆ body := by
  unfold itemPieces at hpiece
  cases hps : pieces (.phrase .item) false body.length body with
  | none =>
    rw [hps] at hpiece
    cases hpiece
  | some ps =>
    rw [hps] at hpiece
    exact ⟨isTaken_of_pieces hps piece hpiece, subset_of_pieces hps piece hpiece⟩

end Source

open Source

/-! ## Places -/

/-- The names of a struct and of the modules around it are such words of the text. -/
structure PlacedStruct.HasNames (s : PlacedStruct) (ts : List Token) : Prop where
  decl : s.decl.HasNames ts
  modules : ∀ id ∈ s.modules, (id.IsName ∨ id = .plain "try") ∧ .word id ∈ ts

theorem DeclaredIn.hasNames {piece : List Token} {n : Nat} {s : PlacedStruct}
    (htaken : IsTaken .item piece) (h : DeclaredIn piece n s) : s.HasNames piece := by
  induction h with
  | struct h => exact ⟨h.hasNames htaken, nofun⟩
  | @module piece front body inner id before after n s hm hb h ih =>
    obtain ⟨hid, hmem, hbody⟩ := hm.name htaken
    have hinner : inner ∈ itemPieces body := by
      rw [hb]
      simp
    obtain ⟨htaken', hsub⟩ := isTaken_of_mem_itemPieces hinner
    obtain ⟨hdecl, hmodules⟩ := ih htaken'
    have hsub' : inner ⊆ piece := List.Subset.trans hsub hbody
    refine ⟨hdecl.mono hsub', List.forall_mem_cons.mpr ⟨⟨hid, hmem⟩, fun other hother => ?_⟩⟩
    exact ⟨(hmodules other hother).1, hsub' (hmodules other hother).2⟩

theorem hasNames_of_items {ts : List Token} {items : List Item}
    (h : itemsOfTokens? ts = some items) : ∀ s ∈ placedStructs [] items, s.HasNames ts := by
  intro s hs
  obtain ⟨l, hl, heq⟩ := lists_placedStructs h
  rw [heq] at hs
  obtain ⟨⟨n, s⟩, hmem, rfl⟩ := List.mem_map.mp hs
  obtain ⟨before, piece, after, k, hitems, hdeclared, -⟩ := (hl.mem_iff n s).mp hmem
  have hpiece : piece ∈ itemPieces (dropInnerAttributes ts) := by
    rw [hitems]
    simp
  obtain ⟨htaken, hsub⟩ := isTaken_of_mem_itemPieces hpiece
  obtain ⟨hdecl, hmodules⟩ := hdeclared.hasNames htaken
  have hsub' : piece ⊆ ts :=
    List.Subset.trans hsub (takeForm?_getD_suffix innerAttributes ts).subset
  exact ⟨hdecl.mono hsub', fun id hid => ⟨(hmodules id hid).1, hsub' (hmodules id hid).2⟩⟩

/-! ## Words -/

namespace Lexer

/-- A word that is read from its spelling can be written. -/
theorem isWritten_of_isSpelled {id : Ident} (h : IsSpelled (.word id)) : id.IsWritten := by
  have htoken := (h [] (by simp [Ends])).token
  exact isWritten_of_anyWord? (word?_eq_some (word?_of_token? htoken))

/-- All words of a text can be written. -/
theorem AreLexed.isWritten {ts : List Token} (h : AreLexed ts) {id : Ident}
    (hid : .word id ∈ ts) : id.IsWritten := by
  induction h with
  | nil => cases hid
  | spelled _ spelled _ ih =>
    rcases List.mem_cons.mp hid with rfl | hid
    · exact isWritten_of_isSpelled spelled
    · exact ih hid
  | punct _ _ _ ih =>
    rcases List.mem_cons.mp hid with heq | hid
    · cases heq
    · exact ih hid
  | mark _ marks _ ih =>
    rcases List.mem_cons.mp hid with heq | hid
    · cases heq
    rcases List.mem_cons.mp hid with rfl | hid
    · exact isWritten_of_isSpelled marks.spelled
    · exact ih hid

end Lexer

/-! ## Files -/

/-- The items of the file were read from a text. -/
def SourceFile.IsParsed (file : SourceFile) : Prop := ∃ text, parseFile? text = some file.items

namespace SourceFile

theorem isParsed_of_ofText {several : Bool} {path text : String} {file : SourceFile}
    (h : ofText several path text = .ok file) : file.IsParsed := by
  unfold ofText at h
  split at h
  · cases h
  · next items hitems =>
    cases h
    exact ⟨text, hitems⟩

/-- The structs of a file have names, and all words of its text can be written. -/
theorem IsParsed.hasNames {file : SourceFile} (h : file.IsParsed) :
    ∃ ts, (∀ id, .word id ∈ ts → id.IsWritten) ∧
      ∀ s ∈ placedStructs [] file.items, s.HasNames ts := by
  obtain ⟨text, hparse⟩ := h
  obtain ⟨ts, hlex, hitems⟩ := Option.bind_eq_some_iff.mp hparse
  have hlexed : Lexer.AreLexed ts := by
    have hread : Token.lex? (String.ofList (dropShebang (dropMark text.toList))) = some ts := by
      rw [Token.lex?, String.toList_ofList]
      exact hlex
    exact Lexer.areLexed_of_lex? hread
  exact ⟨ts, fun id hid => hlexed.isWritten hid, hasNames_of_items hitems⟩

end SourceFile

theorem identOfText?_eq_some {text : String} {id : Ident} :
    identOfText? text = some id ↔ Token.lex? text = some [.word id] ∧ id.IsName := by
  unfold identOfText?
  constructor
  · intro h
    split at h
    · next other hlex =>
      split at h
      · cases h
      · next hkeyword =>
        cases h
        exact ⟨hlex, by simpa [Ident.IsName] using hkeyword⟩
    · cases h
  · rintro ⟨hlex, hname⟩
    rw [hlex]
    exact if_neg (by simpa [Ident.IsName] using hname)

theorem name_of_identOfText? {text : String} {id : Ident} (h : identOfText? text = some id) :
    id.IsName ∧ id.IsWritten := by
  obtain ⟨hlex, hname⟩ := identOfText?_eq_some.mp h
  exact ⟨hname, (Lexer.areLexed_of_lex? hlex).isWritten List.mem_cons_self⟩

/-- The name of a module is read with or without a raw mark in front. -/
theorem moduleIdent?_cases {stem : String} {id : Ident} (h : moduleIdent? stem = some id) :
    identOfText? stem = some id ∨
      identOfText? stem = none ∧ identOfText? ("r#" ++ stem) = some id := by
  unfold moduleIdent? at h
  cases hplain : identOfText? stem with
  | some plain => exact .inl (by simpa [hplain] using h)
  | none => exact .inr ⟨rfl, by simpa [hplain] using h⟩

namespace SourceFile

/-- The module that a file forms has a name. -/
theorem name_of_modulePrefix {file : SourceFile} {ids : List Ident}
    (h : file.modulePrefix = .ok ids) : ∀ id ∈ ids, id.IsName ∧ id.IsWritten := by
  unfold modulePrefix at h
  split at h
  · cases h
    exact List.forall_mem_nil _
  · next stem hstem =>
    split at h
    · next id hid =>
      cases h
      refine fun other hother => List.mem_singleton.mp hother ▸ ?_
      obtain hplain | ⟨-, hraw⟩ := moduleIdent?_cases hid
      · exact name_of_identOfText? hplain
      · exact name_of_identOfText? hraw
    · cases h

end SourceFile

end TaggedRows
