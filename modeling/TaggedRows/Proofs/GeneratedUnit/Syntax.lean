import TaggedRows.GeneratedUnit
import TaggedRows.Proofs.Accessor.Printing
import TaggedRows.Proofs.Accessor.Syntax

/-!
# The code of a unit is a file

The import and the blocks of accessors are items, one after the other, and the plain text of a unit
is read as the tokens that it is written with. So for a plain path of the runtime, the code of a
unit is the text of a file exactly if its mappings fit the template.

- **Items** (`GeneratedUnit.follow_importTokens`, `RowMapping.follow_tokens`).
- **Files** (`GeneratedUnit.isFile_print_iff`).
-/

namespace TaggedRows

open Form Source

variable {runtime : RuntimePath} {X : List Token}

/-! ## Items -/

namespace Source

theorem follow_item_impl (X : List Token) :
    follow (.phrase .item) (Token.kw "impl" :: X) = follow implItem (Token.kw "impl" :: X) := by
  have hattributes : follow outerAttributes (Token.kw "impl" :: X) =
      .accepted (Token.kw "impl" :: X) := follow_of_run (n := 9) rfl (by simp)
  have hpub : follow (kw "pub") (Token.kw "impl" :: X) = .refused :=
    follow_of_run (n := 9) rfl (by simp)
  have himpl : follow (.ite (kw "impl") (kw "impl") (.seq (kw "default") (never bang)))
      (Token.kw "impl" :: X) = .accepted X := follow_of_run (n := 9) rfl (by simp)
  rw [follow_phrase]
  change follow (.seq outerAttributes (.phrase .itemBody)) _ = _
  rw [follow_seq, hattributes, Outcome.andThen_accepted, follow_phrase]
  change follow itemBodyForm _ = _
  rw [itemBodyForm, follow_ite, hpub, Outcome.branch_refused, declaration,
    follow_cases_at 14 20 rfl rfl himpl]

end Source

namespace RowMapping

variable {m : RowMapping}

/-- A path of declared names that does not begin with `try` may stand where a type is read. -/
theorem IsDeclared.fitsType (h : m.IsDeclared) (hhead : m.typePath.head? ≠ some (.plain "try")) :
    FitsType false m.typePath := by
  have hne : m.typePath ≠ [] := by simp [RowMapping.typePath]
  obtain ⟨id, ids, hids⟩ := List.exists_cons_of_ne_nil hne
  refine ⟨hne, h.typePath, .inr ⟨id, by rw [hids]; rfl, ?_⟩⟩
  obtain hid | rfl := h.typePath id (by rw [hids]; exact List.mem_cons_self)
  · exact hid
  · exact absurd (by rw [hids]; rfl) hhead

/-- The block of a mapping is an item exactly if the mapping fits the template. -/
theorem follow_tokens (h : runtime.IsPlain) (hm : m.IsDeclared) (X : List Token) :
    follow (.phrase .item) (m.tokens runtime ++ X) = .acceptedIf (decide m.FitsTemplate) X := by
  have hmembers := Accessor.follow_members h hm.accessors X
  obtain ⟨Z, hZ⟩ : ∃ Z, Token.within .brace (m.accessors.flatMap (Accessor.tokens runtime)) ++ X =
      .opening .brace :: Z := ⟨_, rfl⟩
  have hsplit : m.tokens runtime ++ X = Token.kw "impl" :: (runtime.tokensOf ["DbObject"] ++
      Token.kw "for" :: (placedPath false m.typePath ++ .opening .brace :: Z)) := by
    rw [← hZ]
    simp [RowMapping.tokens, placedPath, leading]
  rw [hZ] at hmembers
  have hwhere : follow whereClause (.opening .brace :: Z) = .accepted (.opening .brace :: Z) :=
    follow_of_run (n := 9) rfl (by simp)
  -- The path of the type decides over the block first, and then its accessors do.
  have htype : ((follow type (placedPath false m.typePath ++ .opening .brace :: Z)).andThen
      fun mid => (follow whereClause mid).andThen (follow (members associatedItem))) =
        .acceptedIf (decide m.FitsTemplate) X := by
    by_cases hhead : m.typePath.head? = some (.plain "try")
    · obtain ⟨ids, hids⟩ := List.head?_eq_some_iff.mp hhead
      have hrefused : follow type (placedPath false m.typePath ++ .opening .brace :: Z) =
          .refused := by
        rw [hids, placedPath_cons]
        exact follow_of_run (n := 30) rfl (by simp)
      rw [hrefused, decide_eq_false fun hfits => hfits.typePath hhead]
      rfl
    · have hfits : (m.accessors.all fun a => a.body.isValid) = decide m.FitsTemplate := by
        rw [Bool.eq_iff_iff, hm.all_isValid_iff, decide_eq_true_eq]
        exact ⟨fun hvalid => ⟨hvalid.1, hvalid.2, hhead⟩, fun hfits => ⟨hfits.key, hfits.audit⟩⟩
      rw [type, follow_type true (hm.fitsType hhead) (endsPath_opening .brace Z).endsType,
        Outcome.andThen_accepted, hwhere, Outcome.andThen_accepted, hmembers, hfits]
  have hfor : ∀ Y, follow (kw "for") (Token.kw "for" :: Y) = .accepted Y :=
    fun Y => follow_of_run (n := 9) rfl (by simp)
  have hend : ∀ Y, EndsPath (Token.kw "for" :: Y) := fun Y c joint hhead => by cases hhead
  have hfits := h.fitsType ["DbObject"] (by decide)
  rw [hsplit, follow_item_impl, h.tokensOf_eq]
  generalize placedPath false m.typePath ++ .opening .brace :: Z = Y at htype
  have hobject := follow_type true hfits (hend Y).endsType
  have hbegins := hfits.beginsPath (Token.kw "for" :: Y)
  generalize placedPath runtime.isAbsolute (runtime.names ++ ["DbObject"].map Ident.plain) ++
    Token.kw "for" :: Y = W at hobject hbegins
  have hless : follow (op "<") W = .refused := hbegins.token (c := .punct '<') (by decide)
  have hbang : follow (op "!") W = .refused := hbegins.token (c := .punct '!') (by decide)
  have hmark : follow defaultMark (Token.kw "impl" :: W) = .accepted (Token.kw "impl" :: W) :=
    follow_of_run (n := 9) rfl (by simp)
  have hunsafe : follow (opt (kw "unsafe")) (Token.kw "impl" :: W) =
      .accepted (Token.kw "impl" :: W) := follow_of_run (n := 9) rfl (by simp)
  have himpl : follow (kw "impl") (Token.kw "impl" :: W) = .accepted W :=
    follow_of_run (n := 9) rfl (by simp)
  have hconst : follow (kw "const") W = .refused := hbegins.kw (by decide)
  have hlist : follow (list [whereClause, members associatedItem]) = fun mid =>
      (follow whereClause mid).andThen (follow (members associatedItem)) := by
    funext mid
    rw [follow_list_cons]
    rfl
  simp only [implItem, implParamsStart, follow_list_cons, hmark, hunsafe, himpl, follow_optIf,
    follow_opt, follow_seq, hless, hbang, hconst, type, hobject, hfor, Outcome.andThen_accepted,
    Outcome.andThen_refused, Outcome.branch_accepted, Outcome.branch_refused]
  rw [hlist]
  exact htype

end RowMapping

namespace GeneratedUnit

/-- The import is an item. -/
theorem follow_importTokens (h : runtime.IsPlain) (X : List Token) :
    follow (.phrase .item) (importTokens runtime ++ X) = .accepted X := by
  let imported : List Token := Token.within .brace (Token.commas
    [[Token.kw "Column", Token.kw "as", Token.kw "_"],
      [Token.kw "DbObject", Token.kw "as", Token.kw "_"]]) ++ (Token.op ";" ++ X)
  have himported : follow (.seq (.phrase .useTree) semicolon) imported = .accepted X :=
    follow_of_run (n := 60) rfl (by simp)
  have hids : runtime.names ≠ [] := by simp [RuntimePath.names]
  have htree := follow_useTree (X := imported) hids h.names
  have hcons : Token.path runtime.names = .word runtime.first.ident :: furtherNames _ :=
    path_cons _ _
  have hleading := follow_leading runtime.isAbsolute runtime.first.ident
    (furtherNames (runtime.rest.map PathSegment.ident) ++ (Token.op "::" ++ imported))
  rw [← List.cons_append, ← hcons] at hleading
  have hsplit : importTokens runtime ++ X = Token.op "#" ++ Token.within .bracket
      (Token.kw "allow" :: Token.within .paren [Token.kw "unused_imports"]) ++ Token.kw "use" ::
        (leading runtime.isAbsolute ++ (Token.path runtime.names ++
          (Token.op "::" ++ imported))) := by
    simp [importTokens, h.tokens_eq, placedPath, imported]
  rw [hsplit]
  generalize leading runtime.isAbsolute ++ (Token.path runtime.names ++
    (Token.op "::" ++ imported)) = Z at hleading
  have hattributes : follow outerAttributes (Token.op "#" ++ Token.within .bracket
      (Token.kw "allow" :: Token.within .paren [Token.kw "unused_imports"]) ++
        Token.kw "use" :: Z) = .accepted (Token.kw "use" :: Z) :=
    follow_of_run (n := 40) rfl (by simp)
  have hpub : follow (kw "pub") (Token.kw "use" :: Z) = .refused :=
    follow_of_run (n := 9) rfl (by simp)
  have huse : follow (kw "use") (Token.kw "use" :: Z) = .accepted Z :=
    follow_of_run (n := 9) rfl (by simp)
  rw [follow_seq] at himported
  rw [follow_phrase]
  change follow (.seq outerAttributes (.phrase .itemBody)) _ = _
  rw [follow_seq, hattributes, Outcome.andThen_accepted, follow_phrase]
  change follow itemBodyForm _ = _
  rw [itemBodyForm, follow_ite, hpub, Outcome.branch_refused, declaration,
    follow_cases_at 3 20 rfl rfl huse, useItem, follow_list_cons, huse, Outcome.andThen_accepted,
    follow_list_cons, hleading, Outcome.andThen_accepted, follow_list_cons, htree]
  exact himported

/-- The tokens of a unit are those of a file exactly if its mappings fit the template. -/
theorem isForm_tokens_iff (h : runtime.IsPlain) {mappings : List RowMapping}
    (hm : ∀ m ∈ mappings, m.IsDeclared) :
    isForm file (tokens runtime mappings) = true ↔ ∀ m ∈ mappings, m.FitsTemplate := by
  have hblocks : ∀ ms : List RowMapping, (∀ m ∈ ms, m.IsDeclared) →
      follow (.loop (.token .any) (.phrase .item)) (ms.flatMap fun m => m.tokens runtime) =
        .acceptedIf (ms.all fun m => decide m.FitsTemplate) [] := by
    intro ms hms
    induction ms with
    | nil =>
      rw [List.flatMap_nil, follow_loop, follow_token_nil, Outcome.branch_refused]
      rfl
    | cons m ms ih =>
      obtain ⟨hm, hrest⟩ := List.forall_mem_cons.mp hms
      have htest : follow (.token .any) (m.tokens runtime ++ ms.flatMap fun m => m.tokens runtime) =
          .accepted _ := follow_token_cons
      rw [List.flatMap_cons, follow_loop, htest, Outcome.branch_accepted,
        RowMapping.follow_tokens h hm, Outcome.andThen_acceptedIf _ _ fun _ => ih hrest,
        List.all_cons]
  have hinner : follow innerAttributes (tokens runtime mappings) =
      .accepted (tokens runtime mappings) := follow_of_run (n := 9) rfl (by simp)
  have htest : follow (.token .any) (tokens runtime mappings) = .accepted _ := follow_token_cons
  have hsettles : settles file = true := by decide
  rw [isForm_iff hsettles, file, follow_seq, hinner, Outcome.andThen_accepted, follow_loop, htest,
    Outcome.branch_accepted, tokens, follow_importTokens h, Outcome.andThen_accepted,
    hblocks mappings hm]
  cases hall : mappings.all fun m => decide m.FitsTemplate with
  | false =>
    refine iff_of_false (by simp [Outcome.acceptedIf]) fun hfits => ?_
    rw [List.all_eq_true.mpr fun m hm => decide_eq_true (hfits m hm)] at hall
    cases hall
  | true => exact iff_of_true rfl fun m hm => of_decide_eq_true (List.all_eq_true.mp hall m hm)

/-- The plain text of a unit is the text of a file exactly if its mappings fit the template. -/
theorem isFile_print_iff {text : String} (hparse : RuntimePath.parse? text = some runtime)
    (h : runtime.IsPlain) {mappings : List RowMapping} (hm : ∀ m ∈ mappings, m.IsDeclared)
    (hw : ∀ m ∈ mappings, m.IsWritten) :
    isFile (Token.print (tokens runtime mappings)) = true ↔ ∀ m ∈ mappings, m.FitsTemplate := by
  have hread := Token.lex?_print (rereads_tokens (RuntimePath.rereads_of_parse? hparse) hw)
  rw [isFile, hread]
  exact isForm_tokens_iff h hm

end GeneratedUnit

end TaggedRows
