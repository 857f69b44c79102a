import TaggedRows.Proofs.Accessor.Signatures

/-!
# Accessors are members of an implementation

The tokens of the accessors are members of an implementation, as long as the fields that they read
and write may follow a point and the path of the runtime is plain.

- **Fields** (`Accessor.follow_field`): a field of the object as an operand.
- **Bodies** (`Accessor.IsBody`, `Accessor.follow_bodyTokens`): statements up to the end of a block.
- **Accessors** (`Accessor.follow_tokens`): each is a member.
- **Mappings** (`RowMapping.FitsTemplate`): what the identifiers of a mapping have to be for that.
-/

namespace TaggedRows

open Form Source

namespace Accessor

variable {runtime : RuntimePath} {field : Ident} {ts X : List Token}

/-! ## Operands -/

theorem follow_expr (ts : List Token) : follow expr ts =
    (follow (.phrase (.unary true)) ts).andThen (follow (.phrase (.assignTail true))) := by
  rw [expr, follow_phrase]
  change follow (.seq (.phrase (.unary true)) (.phrase (.assignTail true))) _ = _
  rw [follow_seq]

/-- An operand without a mark in front of it. -/
theorem follow_unary_atom {mid : List Token}
    (h : refusesAll 9 [op "#", op "&", oneOf [op "*", op "!", op "-"]] ts = true)
    (hatom : follow (.phrase (.atom true)) ts = .accepted mid) :
    follow (.phrase (.unary true)) ts = follow (.phrase .trailers) mid := by
  rw [follow_phrase]
  change follow (unaryForm true) _ = _
  rw [unaryForm, follow_seq, outerAttributes, follow_loop,
    follow_of_refusesAll h List.mem_cons_self, Outcome.branch_refused, Outcome.andThen_accepted,
    follow_cases_otherwise 9, follow_seq, hatom, Outcome.andThen_accepted]
  exact (Bool.and_eq_true_iff.mp h).2

/-- Nothing behind a field goes on with it. -/
def endsField : List SForm := [pathSep, openParen, oneOf [openParen, dot, openBracket, op "?"]]

/-- A field of the object. -/
theorem follow_field (hfield : field.IsName) (hX : refusesAll 9 endsField X = true) :
    follow (.phrase (.unary true)) (fieldTokens field ++ X) = .accepted X := by
  have hends := fun f hf => follow_of_refusesAll (f := f) hX hf
  have hatom : follow (.phrase (.atom true)) (fieldTokens field ++ X) =
      .accepted (Token.op "." ++ .word field :: X) := follow_of_run (n := 60) rfl (by simp)
  have haccess : follow access (.word field :: X) = .accepted X := by
    have hawait : (TokenClass.kw "await").admits (.word field) = false :=
      admits_kw_of_isName hfield (by decide)
    have hindex : TokenClass.index.admits (.word field) = false := rfl
    simp [access, follow_cases_cons, follow_cases_nil, follow_optIf, Form.kw, Source.name, hawait,
      hindex, admits_name hfield, hends pathSep (by simp [endsField]),
      hends openParen (by simp [endsField])]
  have htrailers : follow (.phrase .trailers) (Token.op "." ++ .word field :: X) =
      .accepted X := by
    have hdot : follow dot (Token.op "." ++ .word field :: X) =
        .accepted (.word field :: X) := follow_of_run (n := 9) rfl (by simp)
    have hpoint : follow (op ".") (Token.op "." ++ .word field :: X) =
        .accepted (.word field :: X) := follow_of_run (n := 9) rfl (by simp)
    have htest : follow (oneOf [openParen, dot, openBracket, op "?"])
        (Token.op "." ++ .word field :: X) = .accepted (.word field :: X) :=
      follow_of_run (n := 9) rfl (by simp)
    rw [follow_phrase]
    change follow trailersForm _ = _
    rw [trailersForm, follow_loop, htest, Outcome.branch_accepted,
      follow_cases_at 1 9 rfl rfl hdot, follow_seq, hpoint, Outcome.andThen_accepted, haccess,
      Outcome.andThen_accepted, follow_loop, hends _ (by simp [endsField]), Outcome.branch_refused]
  rw [follow_unary_atom rfl hatom, htrailers]

/-- A field of the object, with what follows it in an assignment or at the end of a body. -/
theorem follow_field_expr (hfield : field.IsName) (hX : refusesAll 9 endsField X = true) :
    follow expr (fieldTokens field ++ X) = follow (.phrase (.assignTail true)) X := by
  rw [follow_expr, follow_field hfield hX, Outcome.andThen_accepted]

theorem isItem_str (t : String) : IsItem expr [Token.str t] where
  opens X := follow_of_run (n := 9) rfl (by simp)
  ends hX := by
    cases hX <;> exact follow_of_run (n := 60) rfl (by simp)

theorem follow_arrayExpr (texts : List String) (X : List Token) :
    follow arrayExpr
      (Token.within .bracket (Token.commas (texts.map fun t => [Token.str t])) ++ X) =
      .accepted X := by
  have hitems : ∀ us ∈ texts.map fun t => [Token.str t], IsItem expr us := by
    intro us hus
    obtain ⟨t, -, rfl⟩ := List.mem_map.mp hus
    exact isItem_str t
  refine follow_group ?_
  cases texts with
  | nil => exact follow_of_run (n := 9) rfl (by simp)
  | cons t texts =>
    obtain ⟨ht, htexts⟩ := List.forall_mem_cons.mp hitems
    have hfirst : ∀ Y, follow (never anyClose) ([Token.str t] ++ Y) =
        .accepted ([Token.str t] ++ Y) := fun Y => follow_of_run (n := 9) rfl (by simp)
    cases texts with
    | nil =>
      have hend : follow (.ite semicolon (.seq semicolon expr)
          (optIf (op ",") (.seq (op ",") (commaList expr)))) (.closing .bracket :: X) =
          .accepted (.closing .bracket :: X) := follow_of_run (n := 9) rfl (by simp)
      rw [List.map_singleton, Token.commas, follow_optIf, hfirst, Outcome.branch_accepted,
        follow_seq, ht.ends (.closing .bracket X), Outcome.andThen_accepted, hend]
    | cons u texts =>
      have hlist := follow_commaList htexts (fun h => absurd h Bool.false_ne_true) .bracket X
      have hsplit : Token.commas ((t :: u :: texts).map fun t => [Token.str t]) ++
          .closing .bracket :: X = [Token.str t] ++ (Token.op "," ++
            (Token.commas ((u :: texts).map fun t => [Token.str t]) ++
              .closing .bracket :: X)) := by
        simp [Token.commas]
      have hsemicolon : ∀ Y, follow semicolon (Token.op "," ++ Y) = .refused :=
        fun Y => follow_of_run (n := 9) rfl (by simp)
      have hcomma : ∀ Y, follow (op ",") (Token.op "," ++ Y) = .accepted Y :=
        fun Y => follow_of_run (n := 9) rfl (by simp)
      rw [hsplit, follow_optIf, hfirst, Outcome.branch_accepted, follow_seq,
        ht.ends (.comma _), Outcome.andThen_accepted, follow_ite, hsemicolon,
        Outcome.branch_refused, follow_optIf, hcomma, Outcome.branch_accepted, follow_seq, hcomma,
        Outcome.andThen_accepted]
      exact hlist

/-- A reference to an array of texts. -/
theorem follow_texts (texts : List String) (X : List Token) :
    follow expr (bodyTokens runtime (.texts texts) ++ .closing .brace :: X) =
      .accepted (.closing .brace :: X) := by
  have harray := follow_arrayExpr texts (.closing .brace :: X)
  rw [bodyTokens, List.append_assoc]
  obtain ⟨Z, hZ⟩ : ∃ Z, Token.within .bracket (Token.commas (texts.map fun t => [Token.str t])) ++
      .closing .brace :: X = .opening .bracket :: Z := ⟨_, rfl⟩
  rw [hZ] at harray ⊢
  have hatom : follow (.phrase (.atom true)) (.opening .bracket :: Z) =
      .accepted (.closing .brace :: X) := by
    rw [follow_phrase]
    change follow (atomForm true) _ = _
    have hopen : follow openBracket (.opening .bracket :: Z) = .accepted Z :=
      follow_of_run (n := 9) rfl (by simp)
    rw [atomForm, follow_cases_at 9 30 rfl rfl hopen, harray]
  have hunary : follow (.phrase (.unary true)) (.opening .bracket :: Z) =
      .accepted (.closing .brace :: X) :=
    (follow_unary_atom rfl hatom).trans (follow_of_run (n := 20) rfl (by simp))
  have hamp : follow (op "&") (Token.op "&" ++ .opening .bracket :: Z) =
      .accepted (.opening .bracket :: Z) := follow_of_run (n := 9) rfl (by simp)
  have hmarks : follow (.ite (.seq (kw "raw") (oneOf [kw "mut", kw "const"]))
      (.seq (kw "raw") (.ite (kw "mut") (kw "mut") (kw "const"))) (opt (kw "mut")))
      (.opening .bracket :: Z) = .accepted (.opening .bracket :: Z) :=
    follow_of_run (n := 9) rfl (by simp)
  have hattributes : follow outerAttributes (Token.op "&" ++ .opening .bracket :: Z) =
      .accepted (Token.op "&" ++ .opening .bracket :: Z) := follow_of_run (n := 9) rfl (by simp)
  have hreference : follow (.phrase (.unary true)) (Token.op "&" ++ .opening .bracket :: Z) =
      .accepted (.closing .brace :: X) := by
    rw [follow_phrase]
    change follow (unaryForm true) _ = _
    rw [unaryForm, follow_seq, hattributes, Outcome.andThen_accepted, follow_cases_at 0 9 rfl rfl
      hamp, follow_list_cons, hamp, Outcome.andThen_accepted, follow_list_cons, hmarks,
      Outcome.andThen_accepted, follow_list_singleton, hunary]
  rw [follow_expr, hreference, Outcome.andThen_accepted]
  exact follow_of_run (n := 60) rfl (by simp)

/-- A call of the macro that makes a vector. -/
theorem follow_vecArgs {items : List (List Token)} (h : IsTrees (Token.commas items))
    (X : List Token) : follow expr (vecArgs items ++ .closing .brace :: X) =
      .accepted (.closing .brace :: X) := by
  have hdelimited := follow_delimited h .bracket .bracket (.closing .brace :: X)
  have hsplit : vecArgs items ++ .closing .brace :: X = Token.rootPath ["std", "vec"] ++
      (Token.op "!" ++ .opening .bracket :: (Token.commas items ++ .closing .bracket ::
        .closing .brace :: X)) := by
    simp [vecArgs, Token.within]
  rw [hsplit]
  generalize Token.commas items ++ .closing .bracket :: .closing .brace :: X = Z at hdelimited ⊢
  have hmacro : follow (.seq plainPath bang) (Token.rootPath ["std", "vec"] ++
      (Token.op "!" ++ .opening .bracket :: Z)) = .accepted (.opening .bracket :: Z) :=
    follow_of_run (n := 20) rfl (by simp)
  have hpath : follow plainPath (Token.rootPath ["std", "vec"] ++
      (Token.op "!" ++ .opening .bracket :: Z)) = .accepted (Token.op "!" ++
        .opening .bracket :: Z) := follow_of_run (n := 20) rfl (by simp)
  have hbang : follow (op "!") (Token.op "!" ++ .opening .bracket :: Z) =
      .accepted (.opening .bracket :: Z) := follow_of_run (n := 9) rfl (by simp)
  have hatom : follow (.phrase (.atom true)) (Token.rootPath ["std", "vec"] ++
      (Token.op "!" ++ .opening .bracket :: Z)) = .accepted (.closing .brace :: X) := by
    rw [follow_phrase]
    change follow (atomForm true) _ = _
    rw [atomForm, follow_cases_at 4 30 rfl rfl (follow_of_run (n := 20) rfl (by simp)), pathExpr,
      follow_ite, hmacro, Outcome.branch_accepted, follow_list_cons, hpath,
      Outcome.andThen_accepted, follow_list_cons, hbang, Outcome.andThen_accepted,
      follow_list_singleton, hdelimited]
  rw [follow_expr, follow_unary_atom rfl hatom, ← follow_seq]
  exact follow_of_run (n := 60) rfl (by simp)

/-! ## Statements -/

def bodyStatements : SForm := .loop (never anyClose) (.ite semicolon semicolon (.phrase .statement))

/-- What an expression that stands as a statement does not begin with. -/
def otherStatements : List SForm :=
  [anyClose, semicolon, op "#", kw "let", itemStart, braceMacro, blockLikeStart]

theorem follow_statements_cons {mid rest : List Token} (h : refusesAll 60 otherStatements ts = true)
    (hexpr : follow expr ts = .accepted mid) (hend : follow statementEnd mid = .accepted rest) :
    follow bodyStatements ts = follow bodyStatements rest := by
  have hrefused := fun f hf => follow_of_refusesAll (f := f) h hf
  have hstatement : follow (.phrase .statement) ts = .accepted rest := by
    rw [follow_phrase]
    change follow statementForm _ = _
    rw [statementForm, follow_seq, outerAttributes, follow_loop,
      hrefused (op "#") (by simp [otherStatements]), Outcome.branch_refused,
      Outcome.andThen_accepted]
    simp only [follow_cases_cons, follow_cases_nil, expressionStatement,
      hrefused (kw "let") (by simp [otherStatements]),
      hrefused itemStart (by simp [otherStatements]),
      hrefused braceMacro (by simp [otherStatements]),
      hrefused blockLikeStart (by simp [otherStatements]), Outcome.branch_refused, follow_seq,
      hexpr, hend, Outcome.andThen_accepted]
  rw [bodyStatements, follow_loop, follow_never, hrefused anyClose (by simp [otherStatements]),
    Outcome.branch_refused, Outcome.branch_accepted, follow_ite,
    hrefused semicolon (by simp [otherStatements]), Outcome.branch_refused, hstatement,
    Outcome.andThen_accepted]

theorem follow_statements_closing (X : List Token) :
    follow bodyStatements (.closing .brace :: X) = .accepted (.closing .brace :: X) := by
  have htest : follow (never anyClose) (.closing .brace :: X) = .refused :=
    follow_of_run (n := 9) rfl (by simp)
  rw [bodyStatements, follow_loop, htest, Outcome.branch_refused]

/-- The tokens are the inside of a block. -/
def IsBody (ts : List Token) : Prop := ∀ X,
  follow (.seq innerAttributes bodyStatements) (ts ++ .closing .brace :: X) =
    .accepted (.closing .brace :: X)

/-- A single expression. -/
theorem isBody_of_expr
    (h : ∀ X, refusesAll 60 (.seq (.token (.punct '#')) (op "!") :: otherStatements)
      (ts ++ .closing .brace :: X) = true)
    (hexpr : ∀ X, follow expr (ts ++ .closing .brace :: X) = .accepted (.closing .brace :: X)) :
    IsBody ts := by
  intro X
  have hend : follow statementEnd (.closing .brace :: X) = .accepted (.closing .brace :: X) :=
    follow_of_run (n := 9) rfl (by simp)
  rw [follow_seq, innerAttributes, follow_loop,
    follow_of_refusesAll (h X) List.mem_cons_self, Outcome.branch_refused,
    Outcome.andThen_accepted,
    follow_statements_cons (Bool.and_eq_true_iff.mp (h X)).2 (hexpr X) hend,
    follow_statements_closing]

/-! ## Bodies -/

/-- The parameters that a body stores. -/
def stored : List String := ["id", "user", "at"]

/-- An assignment up to its end. -/
theorem follow_assignment {a : Assignment} (hfield : a.field.IsName) (hparam : a.param ∈ stored)
    (X : List Token) :
    follow bodyStatements (assignmentTokens a ++ X) = follow bodyStatements X := by
  have hsplit : ∀ value, fieldTokens a.field ++ Token.op "=" ++ value ++ Token.op ";" ++ X =
      fieldTokens a.field ++ (Token.op "=" ++ (value ++ (Token.op ";" ++ X))) := fun value => by
    simp only [List.append_assoc]
  have hend : follow statementEnd (Token.op ";" ++ X) = .accepted X :=
    follow_of_run (n := 9) rfl (by simp)
  have hvalue : follow (.phrase (.assignTail true)) (Token.op "=" ++ ((if a.isConverted then
      Token.rootPath ["core", "convert", "From", "from"] ++ Token.within .paren [Token.kw a.param]
      else [Token.kw a.param]) ++ (Token.op ";" ++ X))) = .accepted (Token.op ";" ++ X) := by
    simp only [stored, List.mem_cons, List.not_mem_nil, or_false] at hparam
    rcases hparam with hparam | hparam | hparam <;> rw [hparam] <;>
      cases a.isConverted <;> exact follow_of_run (n := 99) rfl (by simp)
  rw [assignmentTokens, hsplit]
  refine follow_statements_cons rfl ?_ hend
  rw [follow_field_expr hfield rfl, hvalue]

end Accessor

namespace Body

/-- The body reads or writes fields that can be declared, and stores parameters. -/
def IsDeclared : Body → Prop
  | .read field => field.IsFieldName
  | .assign assignments => ∀ a ∈ assignments, a.field.IsFieldName ∧ a.param ∈ Accessor.stored
  | _ => True

/-- The fields that the body reads or writes may follow a point. -/
def isValid : Body → Bool
  | .read field => !field.isKeyword
  | .assign assignments => assignments.all fun a => !a.field.isKeyword
  | _ => true

end Body

namespace Accessor

theorem isFieldName_cases {field : Ident} (h : field.IsFieldName) :
    field.IsName ∧ field.isKeyword = false ∨ field = .plain "_" ∧ field.isKeyword = true := by
  rcases h with h | rfl
  · exact .inl ⟨h, h⟩
  · exact .inr ⟨rfl, rfl⟩

section
variable {runtime : RuntimePath} (h : runtime.IsPlain)
include h

theorem isTrees_tokensOf (names : List String) : IsTrees (runtime.tokensOf names) := by
  rw [h.tokensOf_eq, placedPath]
  refine IsTrees.append ?_ (isTrees_path _)
  cases runtime.isAbsolute <;> exact isTrees_of_isFlat rfl

theorem isTrees_references (mark : List Token) (hmark : isFlat mark = true) (fields : List Ident)
    (names : List String) : IsTrees (Token.commas (fields.map fun field =>
      mark ++ fieldTokens field ++ [Token.kw "as"] ++ (mark ++ [Token.kw "dyn"] ++
        runtime.tokensOf names))) := by
  refine isTrees_commas fun ts hts => ?_
  obtain ⟨field, -, rfl⟩ := List.mem_map.mp hts
  have hmark' := isTrees_of_isFlat hmark
  exact ((hmark'.append (isTrees_of_isFlat rfl)).append (isTrees_of_isFlat rfl)).append
    ((hmark'.append (isTrees_of_isFlat rfl)).append (isTrees_tokensOf h names))

omit h in
/-- Assignments are followed to the end of their block, or up to one to the placeholder. -/
theorem follow_assignments {assignments : List Assignment}
    (hdeclared : ∀ a ∈ assignments, a.field.IsFieldName ∧ a.param ∈ stored) (X : List Token) :
    follow bodyStatements (assignments.flatMap assignmentTokens ++ .closing .brace :: X) =
      .acceptedIf (assignments.all fun a => !a.field.isKeyword) (.closing .brace :: X) := by
  induction assignments with
  | nil => exact follow_statements_closing X
  | cons a assignments ih =>
    obtain ⟨⟨hfield, hparam⟩, hrest⟩ := List.forall_mem_cons.mp hdeclared
    obtain ⟨field, param, isConverted⟩ := a
    rw [List.flatMap_cons, List.append_assoc, List.all_cons]
    obtain ⟨hname, hkeyword⟩ | ⟨rfl, -⟩ := isFieldName_cases hfield
    · rw [follow_assignment hname hparam, ih hrest, hkeyword]
      rfl
    · exact follow_of_run (n := 99) rfl (by simp)

/-- The inside of a body is followed to its end, or up to the placeholder. -/
theorem follow_bodyTokens {body : Body} (hbody : body.IsDeclared) (X : List Token) :
    follow (.seq innerAttributes bodyStatements) (bodyTokens runtime body ++ .closing .brace :: X) =
      .acceptedIf body.isValid (.closing .brace :: X) := by
  cases body with
  | fresh => exact follow_of_run (n := 99) rfl (by simp)
  | texts ts => exact isBody_of_expr (fun X => rfl) (follow_texts ts) X
  | text t => exact follow_of_run (n := 99) rfl (by simp)
  | zero => exact follow_of_run (n := 99) rfl (by simp)
  | read field =>
    obtain ⟨hname, hkeyword⟩ | ⟨rfl, -⟩ := isFieldName_cases hbody
    · have hend : ∀ X, follow (.phrase (.assignTail true)) (.closing .brace :: X) =
          .accepted (.closing .brace :: X) := fun X => follow_of_run (n := 60) rfl (by simp)
      rw [Body.isValid, hkeyword]
      exact isBody_of_expr (fun X => rfl)
        (fun X => (follow_field_expr hname rfl).trans (hend X)) X
    · exact follow_of_run (n := 99) rfl (by simp)
  | values fields =>
    exact isBody_of_expr (fun X => rfl)
      (follow_vecArgs (isTrees_references h (Token.op "&") rfl fields _)) X
  | slots fields =>
    exact isBody_of_expr (fun X => rfl)
      (follow_vecArgs (isTrees_references h (Token.op "&" ++ [Token.kw "mut"]) rfl fields _)) X
  | assign assignments =>
    have hinner : follow innerAttributes
        (assignments.flatMap assignmentTokens ++ .closing .brace :: X) =
        .accepted (assignments.flatMap assignmentTokens ++ .closing .brace :: X) := by
      cases assignments <;> exact follow_of_run (n := 20) rfl (by simp)
    rw [bodyTokens, follow_seq, hinner, Outcome.andThen_accepted]
    exact follow_assignments hbody X

/-! ## Members -/

omit h in
theorem associatedItem_function (X : List Token) :
    follow associatedItem (Token.kw "fn" :: X) = follow function (Token.kw "fn" :: X) := by
  have hfront : ∀ f, follow (.seq outerAttributes f) (Token.kw "fn" :: X) =
      follow f (Token.kw "fn" :: X) := fun f => by
    have hnone : follow outerAttributes (Token.kw "fn" :: X) = .accepted (Token.kw "fn" :: X) :=
      follow_of_run (n := 9) rfl (by simp)
    rw [follow_seq, hnone, Outcome.andThen_accepted]
  have hmacro : follow (.seq plainPath bang) (Token.kw "fn" :: X) = .refused :=
    follow_of_run (n := 20) rfl (by simp)
  have hmarks : ∀ f, f ∈ [visibility, defaultMark] → follow f (Token.kw "fn" :: X) =
      .accepted (Token.kw "fn" :: X) := by
    intro f hf
    simp only [List.mem_cons, List.not_mem_nil, or_false] at hf
    rcases hf with rfl | rfl <;> exact follow_of_run (n := 20) rfl (by simp)
  rw [associatedItem, hfront, follow_ite, hmacro, Outcome.branch_refused, follow_list_cons,
    hmarks _ (by simp), Outcome.andThen_accepted, follow_list_cons, hmarks _ (by simp),
    Outcome.andThen_accepted, follow_list_singleton, follow_cases_otherwise 9 rfl]

/-- The names of the accessor are names, and its fields can be declared. -/
structure IsDeclared (a : Accessor) : Prop where
  name : (Ident.plain a.name).IsName
  params : ∀ p ∈ a.params, (Ident.plain p.name).IsName
  body : a.body.IsDeclared

/-- An accessor is a member exactly if its body is valid. -/
theorem follow_tokens {a : Accessor} (ha : a.IsDeclared) (X : List Token) :
    follow associatedItem (a.tokens runtime ++ X) = .acceptedIf a.body.isValid X := by
  have hblock : follow block (Token.within .brace (bodyTokens runtime a.body) ++ X) =
      .acceptedIf a.body.isValid X := by
    rw [block, follow_phrase]
    exact follow_group_acceptedIf (follow_bodyTokens h ha.body X)
  have hsplit : a.tokens runtime ++ X = [Token.kw "fn", Token.kw a.name] ++
      Token.within .paren (paramsTokens runtime a) ++ resultTokens runtime a.result ++
        (Token.within .brace (bodyTokens runtime a.body) ++ X) := by
    simp only [tokens, List.append_assoc]
  obtain ⟨Y, hY⟩ : ∃ Y, Token.within .brace (bodyTokens runtime a.body) ++ X =
      .opening .brace :: Y := ⟨_, rfl⟩
  rw [hY] at hsplit hblock
  have hsemicolon : follow semicolon (.opening .brace :: Y) = .refused :=
    follow_of_run (n := 9) rfl (by simp)
  have hmember : follow associatedItem (a.tokens runtime ++ X) =
      follow function (a.tokens runtime ++ X) := associatedItem_function _
  rw [hmember, hsplit, function, follow_seq, follow_signature h ha.name ha.params,
    Outcome.andThen_accepted, follow_ite, hsemicolon, Outcome.branch_refused, hblock]

/-- Members are followed to the end of their implementation exactly if all their bodies are
valid. -/
theorem follow_members {as : List Accessor} (has : ∀ a ∈ as, a.IsDeclared) (X : List Token) :
    follow (members associatedItem)
      (Token.within .brace (as.flatMap fun a => a.tokens runtime) ++ X) =
        .acceptedIf (as.all fun a => a.body.isValid) X := by
  refine follow_group_acceptedIf ?_
  have hinner : follow innerAttributes
      ((as.flatMap fun a => a.tokens runtime) ++ .closing .brace :: X) =
      .accepted ((as.flatMap fun a => a.tokens runtime) ++ .closing .brace :: X) := by
    cases as <;> exact follow_of_run (n := 20) rfl (by simp)
  rw [follow_seq, hinner, Outcome.andThen_accepted]
  clear hinner
  induction as with
  | nil =>
    have htest : follow (never anyClose) (.closing .brace :: X) = .refused :=
      follow_of_run (n := 9) rfl (by simp)
    exact follow_loop.trans (congrArg (Outcome.branch · _ _) htest)
  | cons a as ih =>
    obtain ⟨ha, hrest⟩ := List.forall_mem_cons.mp has
    have hopens : ∀ Y, follow (never anyClose) (a.tokens runtime ++ Y) =
        .accepted (a.tokens runtime ++ Y) := fun Y => follow_of_run (n := 9) rfl (by simp)
    rw [List.flatMap_cons, List.append_assoc, follow_loop, hopens, Outcome.branch_accepted,
      follow_tokens h ha, Outcome.andThen_acceptedIf _ _ fun _ => ih hrest, List.all_cons]

end

end Accessor

/-! ## Blocks -/

namespace RowMapping

/-- The identifiers of the mapping can be declared: fields, and the path of a type. -/
structure IsDeclared (m : RowMapping) : Prop where
  typePath : ∀ id ∈ m.typePath, id.IsSegmentWord
  key : ∀ entry ∈ m.key, entry.field.IsFieldName
  audit : ∀ id ∈ m.userAudit.toList ++ m.timeAudit.toList, id.IsFieldName

/-- The identifiers of the mapping fit where its block of accessors has them: no accessor reads or
writes the placeholder, and the path of the type does not begin with `try`. -/
structure FitsTemplate (m : RowMapping) : Prop where
  key : ∀ entry ∈ m.key, entry.field ≠ .plain "_"
  audit : ∀ id ∈ m.userAudit.toList ++ m.timeAudit.toList, id ≠ .plain "_"
  typePath : m.typePath.head? ≠ some (.plain "try")

instance (m : RowMapping) : Decidable m.FitsTemplate :=
  decidable_of_iff ((∀ entry ∈ m.key, entry.field ≠ .plain "_") ∧
    (∀ id ∈ m.userAudit.toList ++ m.timeAudit.toList, id ≠ .plain "_") ∧
      m.typePath.head? ≠ some (.plain "try"))
    ⟨fun h => ⟨h.1, h.2.1, h.2.2⟩, fun h => ⟨h.key, h.audit, h.typePath⟩⟩

variable {m : RowMapping}

theorem IsDeclared.keyAccessor (h : m.IsDeclared) : m.keyAccessor.IsDeclared := by
  refine ⟨rfl, nofun, ?_⟩
  unfold RowMapping.keyAccessor
  cases hk : m.key with
  | none => trivial
  | some entry => exact h.key entry hk

theorem IsDeclared.setIdAccessor (h : m.IsDeclared) : m.setIdAccessor.IsDeclared := by
  unfold RowMapping.setIdAccessor
  cases hk : m.key with
  | none => exact ⟨rfl, fun p hp => List.mem_singleton.mp hp ▸ rfl, nofun⟩
  | some entry =>
    refine ⟨rfl, fun p hp => List.mem_singleton.mp hp ▸ rfl, fun a ha => ?_⟩
    cases List.mem_singleton.mp ha
    exact ⟨h.key entry hk, by simp [Accessor.stored]⟩

theorem IsDeclared.modifiedBy (h : m.IsDeclared) : m.modifiedByAccessor.IsDeclared := by
  refine ⟨rfl, ?_, ?_⟩
  · intro p hp
    simp only [modifiedByAccessor, List.mem_cons, List.not_mem_nil, or_false] at hp
    rcases hp with rfl | rfl
    · cases m.userAudit.isSome <;> rfl
    · cases m.timeAudit.isSome <;> rfl
  · intro a ha
    rcases List.mem_append.mp ha with ha | ha
    · obtain ⟨id, hid, rfl⟩ := Option.map_eq_some_iff.mp (Option.mem_toList.mp ha)
      refine ⟨h.audit id (List.mem_append_left _ (Option.mem_toList.mpr hid)), ?_⟩
      simp [Accessor.paramName, hid, Accessor.stored]
    · obtain ⟨id, hid, rfl⟩ := Option.map_eq_some_iff.mp (Option.mem_toList.mp ha)
      refine ⟨h.audit id (List.mem_append_right _ (Option.mem_toList.mpr hid)), ?_⟩
      simp [Accessor.paramName, hid, Accessor.stored]

/-- Every accessor of a mapping with such identifiers is declared. -/
theorem IsDeclared.accessors (h : m.IsDeclared) : ∀ a ∈ m.accessors, a.IsDeclared := by
  have fixed : ∀ {name receiver result body}, (Ident.plain name).IsName →
      body.IsDeclared → Accessor.IsDeclared ⟨name, receiver, [], result, body⟩ :=
    fun hname hbody => ⟨hname, nofun, hbody⟩
  simp only [RowMapping.accessors, List.forall_mem_cons]
  exact ⟨fixed rfl trivial, fixed rfl trivial, fixed rfl trivial, fixed rfl trivial,
    fixed rfl trivial, fixed rfl trivial, fixed rfl trivial, fixed rfl trivial,
    h.keyAccessor, h.setIdAccessor, fixed rfl trivial, fixed rfl trivial, fixed rfl trivial,
    h.modifiedBy, List.forall_mem_nil _⟩

/-- The accessors only read and write names where the key and the audit fields are no
placeholders. -/
theorem IsDeclared.all_isValid_iff (h : m.IsDeclared) :
    (m.accessors.all fun a => a.body.isValid) = true ↔
      (∀ entry ∈ m.key, entry.field ≠ .plain "_") ∧
        ∀ id ∈ m.userAudit.toList ++ m.timeAudit.toList, id ≠ .plain "_" := by
  have hfield : ∀ {id : Ident}, id.IsFieldName → ((!id.isKeyword) = true ↔ id ≠ .plain "_") := by
    rintro id (hid | rfl)
    · refine iff_of_true (by rw [show id.isKeyword = false from hid]; rfl) ?_
      rintro rfl
      cases hid
    · exact iff_of_false (by decide) (by simp)
  have hkey : m.keyAccessor.body.isValid = true ↔ ∀ entry ∈ m.key, entry.field ≠ .plain "_" := by
    unfold RowMapping.keyAccessor
    cases hk : m.key with
    | none => simp [Body.isValid]
    | some entry => simpa [Body.isValid] using hfield (h.key entry hk)
  have hset : m.setIdAccessor.body.isValid = true ↔ ∀ entry ∈ m.key, entry.field ≠ .plain "_" := by
    unfold RowMapping.setIdAccessor
    cases hk : m.key with
    | none => simp [Body.isValid]
    | some entry => simpa [Body.isValid] using hfield (h.key entry hk)
  have haudit : m.modifiedByAccessor.body.isValid = true ↔
      ∀ id ∈ m.userAudit.toList ++ m.timeAudit.toList, id ≠ .plain "_" := by
    have hall : m.modifiedByAccessor.body.isValid = true ↔
        ∀ id ∈ m.userAudit.toList ++ m.timeAudit.toList, (!id.isKeyword) = true := by
      unfold modifiedByAccessor
      cases m.userAudit <;> cases m.timeAudit <;> simp [Body.isValid]
    rw [hall]
    exact forall₂_congr fun id hid => hfield (h.audit id hid)
  rw [List.all_eq_true]
  simp only [RowMapping.accessors, List.forall_mem_cons]
  constructor
  · rintro ⟨-, -, -, -, -, -, -, -, hk, -, -, -, -, hm, -⟩
    exact ⟨hkey.mp hk, haudit.mp hm⟩
  · rintro ⟨hk, hm⟩
    exact ⟨rfl, rfl, rfl, rfl, rfl, rfl, rfl, rfl, hkey.mpr hk, hset.mpr hk, rfl, rfl, rfl,
      haudit.mpr hm, List.forall_mem_nil _⟩

end RowMapping

end TaggedRows
