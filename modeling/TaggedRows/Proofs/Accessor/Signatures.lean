import TaggedRows.Proofs.RuntimePath.Plain
import TaggedRows.Proofs.Source.Trees

/-!
# The heads of accessors are heads of functions

A runtime path that is plain stands in the head of an accessor where a bound or a type is read.

- **Types** (`Accessor.follow_paramType`, `Accessor.follow_vecType`, `Accessor.follow_result`).
- **Heads** (`Accessor.follow_signature`).
-/

namespace TaggedRows

open Form Source

namespace Source

theorem EndsItem.endsPath {X : List Token} (h : EndsItem X) : EndsPath X := by
  cases h with
  | comma X => exact endsPath_of_head (by decide)
  | closing d X => exact endsPath_closing d X

end Source

namespace Accessor

variable {runtime : RuntimePath} {X Y : List Token}

/-! ## Types -/

section
variable (h : runtime.IsPlain)
include h

/-- A reference to what has a trait of the runtime, and marks in front of it. -/
theorem follow_reference {mark : List Token} {names : List String}
    (hmark : mark = [] ∨ mark = [Token.kw "mut"]) (hnames : ∀ s ∈ names, s ∉ Ident.keywords)
    (hX : EndsPath X) (hparen : follow openParen X = .refused) :
    follow type (Token.op "&" ++ (mark ++ Token.kw "dyn" :: (runtime.tokensOf names ++ X))) =
      .accepted X := by
  have hpath := h.fitsType names hnames
  rw [h.tokensOf_eq]
  have hdyn := follow_type_dyn false ((hpath.beginsPath X).token (c := .punct '*') (by decide))
  rw [follow_bounds hpath hX hparen] at hdyn
  have hmarks : ∀ Y, follow (.seq (opt lifetime) (opt (kw "mut"))) (mark ++ Token.kw "dyn" :: Y) =
      .accepted (Token.kw "dyn" :: Y) := fun Y => by
    obtain rfl | rfl := hmark <;> exact follow_of_run (n := 9) rfl (by simp)
  rw [type, follow_type_reference true (hmarks _), hdyn]

theorem follow_paramType (type : ParamType) (hX : EndsItem X) :
    follow Source.type (paramTypeTokens runtime type ++ X) = .accepted X := by
  have hends : EndsPath X := hX.endsPath
  cases type with
  | id =>
    exact follow_type true (fitsType_plain false ["i64"] (by simp) (by decide))
      hends.endsType
  | time =>
    have hargs : follow genericArgs
        (Token.op "<" ++ (runtime.tokensOf ["chrono", "Utc"] ++ (Token.op ">" ++ X))) =
        .accepted X := by
      have hfits := h.fitsType ["chrono", "Utc"] (by decide)
      have hgreater : EndsPath (Token.op ">" ++ X) := endsPath_of_head (by decide)
      have hbegins := hfits.beginsPath (Token.op ">" ++ X)
      rw [h.tokensOf_eq]
      exact follow_genericArgs (hbegins.token (c := .punct '>') (by decide)) hbegins.lifetime
        hbegins.constStart (follow_type true hfits hgreater.endsType)
    have hfits := h.fitsType ["chrono"] (by decide)
    have hname : (Ident.plain "DateTime").IsName := rfl
    have htype := follow_type true hfits (endsType_args hname hargs hends)
    have hsplit : paramTypeTokens runtime .time ++ X =
        placedPath runtime.isAbsolute (runtime.names ++ ["chrono"].map Ident.plain) ++
          (Token.op "::" ++ .word (.plain "DateTime") :: (Token.op "<" ++
            (runtime.tokensOf ["chrono", "Utc"] ++ (Token.op ">" ++ X)))) := by
      rw [← h.tokensOf_eq]
      simp [paramTypeTokens, RuntimePath.tokensOf, Token.kw]
    rw [hsplit]
    exact htype

theorem follow_dots_paramType (type : ParamType) (X : List Token) :
    follow (op "...") (paramTypeTokens runtime type ++ X) = .refused := by
  cases type with
  | id => exact follow_of_run (n := 9) rfl (by simp)
  | time =>
    have hbegins := (h.fitsType ["chrono", "DateTime"] (by decide)).beginsPath
      (Token.op "<" ++ runtime.tokensOf ["chrono", "Utc"] ++ Token.op ">" ++ X)
    rw [← h.tokensOf_eq] at hbegins
    change follow (.seq (.token (.joint '.')) _) _ = _
    rw [paramTypeTokens]
    simp only [List.append_assoc] at hbegins ⊢
    rw [follow_seq, hbegins.token (by decide)]
    rfl

/-- A vector of references, in front of a body. -/
theorem follow_vecType (mark : List Token) (names : List String)
    (hmark : mark = [] ∨ mark = [Token.kw "mut"]) (hnames : ∀ s ∈ names, s ∉ Ident.keywords)
    (X : List Token) :
    follow type (Token.vecOf (Token.op "&" ++ mark ++ [Token.kw "dyn"] ++ runtime.tokensOf names) ++
      .opening .brace :: X) = .accepted (.opening .brace :: X) := by
  have hfits := fitsType_plain true ["std", "vec"] (by simp) (by decide)
  have hargs : follow genericArgs (Token.op "<" ++ ((Token.op "&" ++ (mark ++ Token.kw "dyn" ::
      runtime.tokensOf names)) ++ (Token.op ">" ++ .opening .brace :: X))) =
      .accepted (.opening .brace :: X) := by
    refine follow_genericArgs (follow_of_run (n := 9) rfl (by simp))
      (follow_of_run (n := 9) rfl (by simp)) (follow_of_run (n := 9) rfl (by simp)) ?_
    rw [List.append_assoc, List.append_assoc, List.cons_append]
    exact follow_reference h hmark hnames (endsPath_of_head (by decide))
      (follow_of_run (n := 9) rfl (by simp))
  have hname : (Ident.plain "Vec").IsName := rfl
  have htype := follow_type true hfits (endsType_args hname hargs (endsPath_opening .brace X))
  have hsplit : Token.vecOf (Token.op "&" ++ mark ++ [Token.kw "dyn"] ++ runtime.tokensOf names) ++
      .opening .brace :: X = placedPath true [.plain "std", .plain "vec"] ++ (Token.op "::" ++
        .word (.plain "Vec") :: (Token.op "<" ++ ((Token.op "&" ++ (mark ++ Token.kw "dyn" ::
          runtime.tokensOf names)) ++ (Token.op ">" ++ .opening .brace :: X)))) := by
    simp [Token.vecOf, Token.rootPath, placedPath, leading, Token.path, Token.kw]
  rw [hsplit]
  exact htype

/-- The result of an accessor, in front of its body. -/
theorem follow_result (result : ResultType) (X : List Token) :
    follow (.seq (returnType type) whereClause)
      (resultTokens runtime result ++ .opening .brace :: X) = .accepted (.opening .brace :: X) := by
  have hwhere : follow whereClause (.opening .brace :: X) = .accepted (.opening .brace :: X) :=
    follow_of_run (n := 9) rfl (by simp)
  have harrow : ∀ ts : List Token, follow (op "->") (Token.op "->" ++ ts) = .accepted ts :=
    fun ts => follow_of_run (n := 9) rfl (by simp)
  cases result with
  | values =>
    rw [resultTokens, List.append_assoc, follow_seq, returnType, follow_optIf, harrow,
      Outcome.branch_accepted, follow_seq, harrow, Outcome.andThen_accepted]
    have hvec := follow_vecType h [] ["rusqlite", "ToSql"] (.inl rfl) (by decide) X
    rw [List.append_nil] at hvec
    rw [valueType, hvec, Outcome.andThen_accepted, hwhere]
  | slots =>
    rw [resultTokens, List.append_assoc, follow_seq, returnType, follow_optIf, harrow,
      Outcome.branch_accepted, follow_seq, harrow, Outcome.andThen_accepted]
    have hvec := follow_vecType h [Token.kw "mut"] ["Column"] (.inr rfl) (by decide) X
    exact (congrArg (Outcome.andThen · _) hvec).trans hwhere
  | _ => exact follow_of_run (n := 99) rfl (by simp)

/-! ## Signatures -/

omit h in
/-- A name as a pattern, in front of its type. -/
theorem follow_pattern_name {id : Ident} (hid : id.IsName) (X : List Token) :
    follow pattern (.word id :: (Token.op ":" ++ X)) = .accepted (Token.op ":" ++ X) := by
  have hkw : ∀ s ∈ Ident.keywords, (TokenClass.kw s).admits (.word id) = false := fun s hs =>
    admits_kw_of_isName hid hs
  have hpath : follow (oneOf [pathSep, bang, openBrace, openParen, op ".."])
      (Token.op ":" ++ X) = .refused := follow_of_run (n := 9) rfl (by simp)
  have hat : follow (op "@") (Token.op ":" ++ X) = .refused := follow_of_run (n := 9) rfl (by simp)
  have hops : ∀ text ∈ ["::", "<", "-"], follow (op text) (.word id :: (Token.op ":" ++ X)) =
      .refused := by
    intro text htext
    simp only [List.mem_cons, List.not_mem_nil, or_false] at htext
    rcases htext with rfl | rfl | rfl <;> exact follow_of_run (n := 9) rfl (by simp)
  have hliteral : follow literal (.word id :: (Token.op ":" ++ X)) = .refused :=
    follow_of_run (n := 9) rfl (by simp)
  rw [pattern, follow_phrase]
  change follow patternForm _ = _
  rw [patternForm, follow_cases_cons, follow_oneOf_cons, follow_seq, Source.name,
    follow_token_cons, if_pos (admits_name hid), Outcome.andThen_accepted, hpath,
    Outcome.branch_refused]
  simp (disch := decide) [bindingPattern, follow_cases_cons, follow_oneOf_cons,
    follow_oneOf_singleton, follow_list_cons, follow_list_singleton, follow_opt, follow_optIf,
    Source.name, Form.kw, underscore, pathSep, hkw, admits_name hid, hat, hops, hliteral]

omit h in
theorem isItem_receiver {receiver : Receiver} {ts : List Token}
    (hts : ts ∈ receiverTokens receiver) : IsItem functionParam ts := by
  cases receiver with
  | none => cases hts
  | shared =>
    obtain rfl := List.mem_singleton.mp hts
    exact ⟨fun _ => follow_of_run (n := 9) rfl (by simp),
      fun _ => follow_of_run (n := 30) rfl (by simp)⟩
  | exclusive =>
    obtain rfl := List.mem_singleton.mp hts
    exact ⟨fun _ => follow_of_run (n := 9) rfl (by simp),
      fun _ => follow_of_run (n := 30) rfl (by simp)⟩

theorem isItem_param {p : Param} (hp : (Ident.plain p.name).IsName) :
    IsItem functionParam (paramTokens runtime p) where
  opens X := follow_of_run (n := 9) rfl (by simp)
  ends {X} hX := by
    have hkw : ∀ s ∈ Ident.keywords, (TokenClass.kw s).admits (Token.kw p.name) = false :=
      fun s hs => admits_kw_of_isName hp hs
    have hsplit : paramTokens runtime p ++ X = Token.kw p.name :: (Token.op ":" ++
        (paramTypeTokens runtime p.type ++ X)) := by
      simp [paramTokens]
    have htype := follow_paramType h p.type hX
    have hdots := follow_dots_paramType h p.type X
    generalize paramTypeTokens runtime p.type ++ X = Y at hsplit htype hdots
    have hops : ∀ f ∈ [op "#", op "...", op "&"],
        follow f (Token.kw p.name :: (Token.op ":" ++ Y)) = .refused :=
      fun f hf => follow_of_refusesAll (n := 9) rfl hf
    have hcolon : follow (op ":") (Token.op ":" ++ Y) = .accepted Y :=
      follow_of_run (n := 9) rfl (by simp)
    have hpattern : follow pattern (Token.kw p.name :: (Token.op ":" ++ Y)) =
      .accepted (Token.op ":" ++ Y) := follow_pattern_name hp Y
    rw [hsplit]
    simp (disch := simp) [functionParam, outerAttributes, receiverStart, follow_loop,
      follow_cases_cons, follow_cases_nil, follow_list_cons, follow_list_singleton,
      follow_optIf, follow_opt, Form.kw, hops, hkw "mut" (by decide), hkw "self" (by decide),
      hpattern, hcolon, hdots, htype]

/-- The head of an accessor, in front of its body. -/
theorem follow_signature {a : Accessor} (hname : (Ident.plain a.name).IsName)
    (hparams : ∀ p ∈ a.params, (Ident.plain p.name).IsName) (X : List Token) :
    follow signature ([Token.kw "fn", Token.kw a.name] ++
      Token.within .paren (paramsTokens runtime a) ++ resultTokens runtime a.result ++
        .opening .brace :: X) = .accepted (.opening .brace :: X) := by
  have hlist : ∀ Y, follow (paren (commaList functionParam))
      (Token.within .paren (paramsTokens runtime a) ++ Y) = .accepted Y := by
    intro Y
    have hitems : ∀ ts ∈ receiverTokens a.receiver ++ a.params.map (paramTokens runtime),
        IsItem functionParam ts := by
      intro ts hts
      rcases List.mem_append.mp hts with hts | hts
      · exact isItem_receiver hts
      · obtain ⟨p, hp, rfl⟩ := List.mem_map.mp hts
        exact isItem_param h (hparams p hp)
    have hcomma : decide (1 < a.params.length) = true →
        receiverTokens a.receiver ++ a.params.map (paramTokens runtime) ≠ [] := by
      intro hlt hnil
      rw [List.append_eq_nil_iff, List.map_eq_nil_iff] at hnil
      simp [hnil.2] at hlt
    have hlist := follow_commaList hitems hcomma .paren Y
    simp only [decide_eq_true_eq, ← List.append_assoc] at hlist
    exact follow_group hlist
  have hstart : ∀ Y, follow functionStart (Token.kw "fn" :: Y) = .accepted Y :=
    fun Y => follow_of_run (n := 20) rfl (by simp)
  have hword : ∀ Y, follow Source.name (Token.kw a.name :: Y) = .accepted Y := fun Y => by
    rw [Source.name, follow_token_cons]
    exact if_pos (admits_name hname)
  have hgenerics : ∀ Y, follow generics (Token.within .paren (paramsTokens runtime a) ++ Y) =
      .accepted (Token.within .paren (paramsTokens runtime a) ++ Y) :=
    fun Y => follow_of_run (n := 20) rfl (by simp)
  have hresult := follow_result h a.result X
  rw [follow_seq] at hresult
  rw [signature, List.append_assoc, List.append_assoc, follow_list_cons]
  simp only [List.cons_append, List.nil_append]
  rw [hstart, Outcome.andThen_accepted, follow_list_cons, hword, Outcome.andThen_accepted,
    follow_list_cons, hgenerics, Outcome.andThen_accepted, follow_list_cons, hlist,
    Outcome.andThen_accepted, follow_list_cons]
  exact hresult

end

end Accessor

end TaggedRows
