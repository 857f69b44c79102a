import TaggedRows.Accessor.Layout
import TaggedRows.Proofs.Layout
import TaggedRows.Proofs.Source.Paths

/-!
# Laid out accessors show their tokens

The layout of each part of a unit shows the tokens of the part, whatever the identifiers, the texts
and the path of the runtime are, and wherever its lines end.

- **Plain tokens** (`Layout.Typesets.ofTokens`).
- **Paths** (`RuntimePath.typeset_textOf`, `Token.typeset_path`).
- **Accessors** (`Accessor.typesets_layout`), from their parameters, results and statements.
- **Units** (`GeneratedUnit.typesets_layout`): the import and one block for each mapping.
-/

namespace TaggedRows

open Token (Typeset IsTypeset typeset? typeset_of_typeset? edgeAfter op kw)

namespace Layout

variable {e e' : Edge} {ts : List Token}

/-- A word without identifiers is checked. -/
theorem Typesets.fixed {s : String} (h : typeset? e ts s.toList = some e') :
    Typesets e (Layout.word s) ts e' := .word (typeset_of_typeset? h)

/-! ## Plain tokens -/

/-- What is kept of the token before agrees with the place behind it. -/
structure Left.Fits (left : Left) (isJoined : Bool) (e : Edge) : Prop where
  joint : e = .joint → isJoined = true
  word : e = .word → isJoined = false ∧ left ≠ .dot ∧ left ≠ .separator
  last : e ≠ .last

theorem fits_spacing (left : Left) (t : Token) : (spacing left t).2.Fits (joins t) t.edge where
  joint h := by
    rcases t with _ | ⟨_, _ | _⟩ | _ | _ | _ <;> first | rfl | cases h
  word h := by
    rcases t with id | ⟨_, _ | _⟩ | _ | _ | _
    case word => by_cases hid : isSetApart id = true <;> simp [spacing, joins, hid]
    case literal => simp [spacing, joins]
    all_goals cases h
  last := t.edge_ne_last

/-- Where words are not set apart by a space, they need not be. -/
theorem admits_of_spacing {left : Left} {t : Token} (he : left.Fits false e)
    (h : (spacing left t).1 = false) : e.Admits t := by
  cases e with
  | word =>
    obtain ⟨-, hdot, hseparator⟩ := he.word rfl
    rcases t with id | ⟨_, _ | _⟩ | _ | _ | _
    case word =>
      by_cases hid : isSetApart id = true <;> simp [spacing, hid, hdot, hseparator] at h
    case literal => simp [spacing, hdot] at h
    all_goals nofun
  | last => exact absurd rfl he.last
  | _ => trivial

/-- The break in front of a token leads to a place where the token may stand. -/
theorem typesets_gapBefore {left : Left} {isJoined : Bool} (he : left.Fits isJoined e) (t : Token) :
    ∃ e', e'.Admits t ∧ Typesets e (gapBefore isJoined (spacing left t).1 t) [] e' := by
  cases isJoined with
  | true =>
    refine ⟨e, ?_, .nil⟩
    cases e with
    | word => cases (he.word rfl).1
    | last => exact absurd rfl he.last
    | _ => trivial
  | false =>
    have hjoint : e ≠ .joint := fun h => nomatch he.joint h
    cases hspace : (spacing left t).1 with
    | true =>
      refine ⟨e.blanked, ?_, .space hjoint⟩
      cases e with
      | last => exact absurd rfl he.last
      | _ => trivial
    | false =>
      refine ⟨e, admits_of_spacing he hspace, ?_⟩
      simp only [gapBefore, Bool.false_eq_true, if_false]
      split
      · exact .cut hjoint
      · exact .nil

theorem typesets_tokensFrom {left : Left} {isJoined : Bool} (he : left.Fits isJoined e)
    (ts : List Token) : Typesets e (tokensFrom left isJoined ts) ts (edgeAfter e ts) := by
  induction ts generalizing e left isJoined with
  | nil => exact .nil
  | cons t ts ih =>
    obtain ⟨e', hadmits, hgap⟩ := typesets_gapBefore he t
    have htoken := Typesets.text (Token.typeset_one hadmits)
    exact hgap.append (htoken.append (ih (fits_spacing left t)))

/-- Plain tokens show themselves. -/
theorem Typesets.ofTokens (ts : List Token) :
    Typesets .free (ofTokens ts) ts (edgeAfter .free ts) :=
  typesets_tokensFrom (e := .free) ⟨nofun, nofun, nofun⟩ ts

end Layout

/-! ## Paths -/

namespace Token

theorem chars_kw (name : String) : (kw name).chars = name.toList := rfl

theorem typeset_kw (name : String) : Typeset .free [kw name] name.toList .word :=
  typeset_one (Edge.free_admits (kw name))

theorem typeset_separator {e : Edge} (h : e ≠ .last) : Typeset e (op "::") [':', ':'] .free := by
  have hfirst : e.Admits (.punct ':' true) := by
    cases e with
    | last => exact absurd rfl h
    | word => nofun
    | _ => trivial
  exact .token hfirst (.token (e := .joint) (t := .punct ':' false) trivial .nil)

/-- Parts of a path show their tokens, with separators between them. -/
theorem typeset_intercalate {α : Type} {f : α → List Token} {g : α → String} {p : Edge → Prop}
    (h : ∀ a, ∃ e, p e ∧ Typeset .free (f a) (g a).toList e)
    (hp : ∀ e, p e → e ≠ .last) (a : α) (as : List α) :
    ∃ e, p e ∧ Typeset .free (f a ++ as.flatMap fun b => op "::" ++ f b)
      ("::".intercalate ((a :: as).map g)).toList e := by
  induction as generalizing a with
  | nil =>
    obtain ⟨e, he, htext⟩ := h a
    exact ⟨e, he, by simpa using htext⟩
  | cons b as ih =>
    obtain ⟨e, he, htext⟩ := h a
    obtain ⟨e', he', hrest⟩ := ih b
    refine ⟨e', he', ?_⟩
    have hall := htext.append ((typeset_separator (hp e he)).append hrest)
    simpa [String.toList_intercalate, List.intercalate_cons_cons] using hall

theorem typeset_path {ids : List Ident} (h : ids ≠ []) :
    Typeset .free (Token.path ids) ("::".intercalate (ids.map Ident.text)).toList .word := by
  obtain ⟨id, ids, rfl⟩ := List.exists_cons_of_ne_nil h
  obtain ⟨e, rfl, hpath⟩ := typeset_intercalate (p := (· = .word))
    (fun id => ⟨.word, rfl, typeset_one (Edge.free_admits (.word id))⟩)
    (by rintro e rfl; nofun) id ids
  rw [Source.path_cons]
  exact hpath

end Token

namespace RuntimePath

variable (runtime : RuntimePath)

theorem typeset_text : ∃ e : Edge, e ≠ .last ∧
    Typeset .free runtime.tokens runtime.text.toList e := by
  have hsegment (s : PathSegment) : ∃ e : Edge, e ≠ .last ∧
      Typeset .free (segmentTokens s) (Token.print (segmentTokens s)).toList e := by
    refine ⟨_, Token.edgeAfter_ne_last (e := .free) nofun (segmentTokens s), ?_⟩
    rw [Token.print, String.toList_ofList]
    exact Token.typeset_printChars (Edge.free_admits (.word s.ident)) s.arguments
  obtain ⟨e, he, hsegments⟩ := Token.typeset_intercalate hsegment (fun _ he => he) runtime.first
    runtime.rest
  have hstart : Typeset .free (if runtime.isAbsolute then op "::" else [])
      (if runtime.isAbsolute then "::" else "").toList .free := by
    split
    · exact typeset_of_typeset? rfl
    · exact .nil
  refine ⟨e, he, ?_⟩
  have hall := hstart.append hsegments
  rw [← List.append_assoc, ← String.toList_append] at hall
  exact hall

theorem typeset_names {e : Edge} (he : e ≠ .last) (names : List String) :
    Typeset e (names.flatMap fun n => op "::" ++ [kw n])
      (String.join (names.map ("::" ++ ·))).toList (if names = [] then e else .word) := by
  induction names generalizing e with
  | nil => exact .nil
  | cons name names ih =>
    have hrest := ih (e := .word) nofun
    rw [ite_self] at hrest
    have hname := (Token.typeset_separator he).append (Token.typeset_kw name)
    have hall := hname.append hrest
    simpa [String.join_cons, Token.chars_kw] using hall

/-- The path of something in the runtime. -/
theorem typeset_textOf {names : List String} (h : names ≠ []) :
    Typeset .free (runtime.tokensOf names) (runtime.textOf names).toList .word := by
  obtain ⟨e, he, hpath⟩ := runtime.typeset_text
  have hnames := typeset_names he names
  rw [if_neg h] at hnames
  rw [textOf, String.toList_append]
  exact hpath.append hnames

end RuntimePath

open Layout (Typesets)

namespace Accessor

variable (runtime : RuntimePath)

/-! ## Signatures -/

/-- The text of a reference is checked up to the path of its type. -/
theorem typeset_reference {lead : List Token} {text : String} {names : List String}
    (hlead : typeset? .free lead text.toList = some .free) (h : names ≠ []) :
    Typeset .free (lead ++ runtime.tokensOf names) (text ++ runtime.textOf names).toList .word := by
  rw [String.toList_append]
  exact (typeset_of_typeset? hlead).append (runtime.typeset_textOf h)

/-- A type shows its tokens and those of its argument. -/
theorem typesets_withArgument {e : Edge} {type arg : String} {ts us : List Token}
    (htype : Typeset e ts type.toList .word) (harg : Typeset .free us arg.toList .word) :
    Typesets e (withArgument type arg) (ts ++ op "<" ++ us ++ op ">") .free := by
  have hopening : Typeset e (ts ++ op "<") (type ++ "<").toList .free := by
    rw [String.toList_append]
    exact htype.append (typeset_of_typeset? rfl)
  exact .bracketed hopening (typeset_of_typeset? rfl) (.cons (.word harg) .nil)

theorem typesets_paramTypeLayout (type : ParamType) :
    Typesets .free (paramTypeLayout runtime type) (paramTypeTokens runtime type) .word := by
  cases type with
  | id => exact .fixed rfl
  | time =>
    have htype := runtime.typeset_textOf (List.cons_ne_nil "chrono" ["DateTime"])
    have harg := runtime.typeset_textOf (List.cons_ne_nil "chrono" ["Utc"])
    exact (typesets_withArgument htype harg).mono (.refl _) (Edge.free_allows _)

theorem typesets_paramLayout (p : Param) :
    Typesets .free (paramLayout runtime p) (paramTokens runtime p) .word := by
  have hname : Typeset .free ([kw p.name] ++ op ":") (p.name ++ ": ").toList .free := by
    rw [String.toList_append]
    exact (Token.typeset_kw p.name).append (typeset_of_typeset? rfl)
  exact (Typesets.word hname).append (typesets_paramTypeLayout runtime p.type)

theorem typesets_resultLayout (type : ResultType) :
    Typesets .free (resultLayout runtime type) (resultTokens runtime type) .word := by
  have hlist {us : List Token} {arg : String} (harg : Typeset .free us arg.toList .word) :
      Typesets .free (withArgument " -> ::std::vec::Vec" arg) (op "->" ++ Token.vecOf us)
        .word := by
    have htype : Typeset .free (op "->" ++ Token.rootPath ["std", "vec", "Vec"])
        " -> ::std::vec::Vec".toList .word := typeset_of_typeset? rfl
    have hall := (typesets_withArgument htype harg).mono (.refl _) (Edge.free_allows .word)
    simpa only [Token.vecOf, List.append_assoc] using hall
  cases type with
  | object => exact .fixed rfl
  | texts => exact (Typesets.fixed rfl).mono (.refl _) (Edge.free_allows _)
  | text => exact .fixed rfl
  | id => exact .fixed rfl
  | values => exact hlist (typeset_reference runtime rfl nofun)
  | slots => exact hlist (typeset_reference runtime rfl nofun)
  | nothing => exact Typesets.nil.mono (.refl _) (Edge.free_allows _)

theorem typesets_receiverLayout (receiver : Receiver) :
    List.Forall₂ (fun l ts => Typesets .free l ts .word) (receiverLayout receiver)
      (receiverTokens receiver) := by
  cases receiver with
  | none => exact .nil
  | shared => exact .cons (.fixed rfl) .nil
  | exclusive => exact .cons (.fixed rfl) .nil

theorem typesets_paramsLayout (a : Accessor) :
    Typesets .free (paramsLayout runtime a) (paramsTokens runtime a) .last := by
  have hparams : List.Forall₂ (fun l ts => Typesets .free l ts .word)
      (a.params.map (paramLayout runtime)) (a.params.map (paramTokens runtime)) := by
    simp only [List.forall₂_map_left_iff, List.forall₂_map_right_iff]
    exact List.forall₂_same.mpr fun p _ => typesets_paramLayout runtime p
  have hitems : List.Forall₂ (fun l ts => Typesets .free l ts .word)
      (receiverLayout a.receiver ++ a.params.map (paramLayout runtime))
      (receiverTokens a.receiver ++ a.params.map (paramTokens runtime)) :=
    List.rel_append (typesets_receiverLayout a.receiver) hparams
  -- The comma behind several parameters is a token, and left out where they fit on one line.
  have hcomma : (if 1 < a.params.length then op "," else []) = [] ∨
      receiverLayout a.receiver ++ a.params.map (paramLayout runtime) ≠ [] ∧
        (if 1 < a.params.length then op "," else []) = op "," := by
    split
    · next hseveral =>
      refine .inr ⟨fun hnil => ?_, rfl⟩
      rw [List.map_eq_nil_iff.mp (List.append_eq_nil_iff.mp hnil).2] at hseveral
      cases hseveral
    · exact .inl rfl
  have hall := Typesets.commaItems hitems hcomma
  rw [paramsLayout, paramsTokens]
  split
  · next hnil => rwa [hnil] at hall
  · exact .cast (.box (.concat_cons (.cut (by decide)) (.concat_one hall))) rfl

/-! ## Statements -/

/-- Behind references to fields stands a word. -/
theorem edgeAfter_commas {items : List (List Token)} (hne : items ≠ [])
    (h : ∀ ts ∈ items, ∀ e, edgeAfter e ts = .word) (e : Edge) :
    edgeAfter e (Token.commas items) = .word := by
  induction items generalizing e with
  | nil => exact absurd rfl hne
  | cons ts items ih =>
    cases items with
    | nil => exact h ts List.mem_cons_self e
    | cons us items =>
      change edgeAfter e (ts ++ op "," ++ Token.commas (us :: items)) = .word
      rw [Token.edgeAfter_append]
      exact ih (List.cons_ne_nil us items) (List.forall_mem_cons.mp h).2 _

theorem typesets_vecLayout {items : List (List Token)}
    (h : ∀ ts ∈ items, ∀ e, edgeAfter e ts = .word) :
    Typesets .free (vecLayout items) (vecArgs items) .free := by
  have hbetween : Typesets .free (if items.isEmpty then Layout.nil
      else Layout.consistent Layout.step [Layout.cut,
        Layout.flowing 0 [Layout.ofTokens (Token.commas items)], Layout.cutBack (-Layout.step)])
      (Token.commas items) .word := by
    cases items with
    | nil => exact Typesets.nil.mono (.refl _) (Edge.free_allows _)
    | cons ts items =>
      have htokens := Typesets.ofTokens (Token.commas (ts :: items))
      rw [edgeAfter_commas (List.cons_ne_nil _ _) h] at htokens
      exact .cast (.box (.concat_cons (.cut (by decide))
        (.concat_cons (.box (.concat_one htokens)) (.concat_one (.cutBack (by decide) _)))))
        (List.append_nil _)
  have hopening : Typesets .free (Layout.word "::std::vec![")
      (Token.rootPath ["std", "vec"] ++ op "!" ++ [.opening .bracket]) .free := .fixed rfl
  have hclosing : Typesets .word (Layout.word "]") [.closing .bracket] .free := .fixed rfl
  have hall := (hopening.append hbetween).append hclosing
  simpa [vecLayout, vecArgs, Token.within] using hall

/-- A field of the object, on one line. -/
theorem typeset_field (field : Ident) :
    Typeset .free (fieldTokens field) ("self." ++ field.text).toList .word := by
  have hself : Typeset .free ([kw "self"] ++ op ".") "self.".toList .free := typeset_of_typeset? rfl
  rw [String.toList_append]
  exact hself.append (Token.typeset_one (Edge.free_admits (.word field)))

/-- What is stored shows its tokens, be it converted or not. -/
theorem typesets_stored (a : Assignment) :
    Typesets .free
      (if a.isConverted then
        Layout.bracketed "::core::convert::From::from(" ")" [Layout.word a.param]
      else Layout.word a.param)
      (if a.isConverted then
        Token.rootPath ["core", "convert", "From", "from"] ++ Token.within .paren [kw a.param]
      else [kw a.param]) .word := by
  have hparam : Typesets .free (Layout.word a.param) [kw a.param] .word :=
    .word (Token.typeset_kw _)
  split
  · have hopening : Typeset .free
        (Token.rootPath ["core", "convert", "From", "from"] ++ [.opening .paren])
        "::core::convert::From::from(".toList .free := typeset_of_typeset? rfl
    have hclosing : Typeset .last [.closing .paren] ")".toList .free := typeset_of_typeset? rfl
    have hall := (Typesets.bracketed hopening hclosing (.cons hparam .nil)).mono (.refl _)
      (Edge.free_allows .word)
    simpa [Token.commas, Token.within] using hall
  · exact hparam

theorem typesets_assignmentLayout (a : Assignment) :
    Typesets .free (assignmentLayout a) (assignmentTokens a) .free := by
  have hdot : Typeset .word (op "." ++ [.word a.field]) ("." ++ a.field.text).toList .word := by
    have hdot : Typeset .word (op ".") ".".toList .free := typeset_of_typeset? rfl
    rw [String.toList_append]
    exact hdot.append (Token.typeset_one (Edge.free_admits (.word a.field)))
  have hfield : Typesets .free (Layout.consistent Layout.step [Layout.word "self", Layout.cut,
      Layout.word ("." ++ a.field.text)]) (fieldTokens a.field) .word :=
    .cast (.box (.concat_cons (.word (Token.typeset_kw "self"))
      (.concat_cons (.cut (by decide)) (.concat_one (.word hdot))))) rfl
  have hequals : Typesets .word (Layout.word " = ") (op "=") .free := .fixed rfl
  have hsemicolon : Typesets .word (Layout.word ";") (op ";") .free := .fixed rfl
  refine .cast (.box (.concat_cons (.box (.concat_cons hfield (.concat_cons hequals
    (.concat_cons (.seam (by decide)) (.concat_one (typesets_stored a))))))
    (.concat_one hsemicolon))) ?_
  simp [assignmentTokens]

theorem typesets_linesFrom {ls : List Layout} {tss : List (List Token)}
    (h : List.Forall₂ (fun l ts => Typesets .free l ts .free) ls tss) :
    Typesets .free (lines.linesFrom ls) tss.flatten .free := by
  induction h with
  | nil => exact .nil
  | @cons l ts ls tss hl hls ih =>
    cases hls with
    | nil => exact (hl.append (.newline (by decide) _)).cast (by simp)
    | cons hl' hls =>
      exact ((hl.append (.newline (by decide) 0)).append ih).cast (by simp)

/-- Layouts behind which everything may follow, on lines of their own. -/
theorem typesets_lines {ls : List Layout} {tss : List (List Token)}
    (h : List.Forall₂ (fun l ts => Typesets .free l ts .free) ls tss) :
    Typesets .free (lines ls) tss.flatten .free := by
  cases h with
  | nil => exact .seam (by decide)
  | cons hl hls =>
    have hlines := typesets_linesFrom (.cons hl hls)
    exact .cast (.append (.newline (by decide) 0) hlines) rfl

/-- A single layout on a line of its own. -/
theorem typesets_line {l : Layout} {ts : List Token} (h : Typesets .free l ts .word) :
    Typesets .free (lines [l]) ts .word :=
  .cast (.append (.newline (by decide) 0) (.append h (.newline (by decide) _))) (List.append_nil ts)

/-- The statements of a body show its tokens. -/
theorem typesets_statements (body : Body) :
    Typesets .free (lines (statements runtime body)) (bodyTokens runtime body) .word := by
  have hvec {items : List (List Token)} (h : ∀ ts ∈ items, ∀ e, edgeAfter e ts = .word) :
      Typesets .free (lines [vecLayout items]) (vecArgs items) .word :=
    typesets_line ((typesets_vecLayout h).mono (.refl _) (Edge.free_allows .word))
  cases body with
  | fresh => exact typesets_line ((Typesets.fixed rfl).mono (.refl _) (Edge.free_allows .word))
  | texts ts =>
    have hopening : Typeset .free (op "&" ++ [.opening .bracket]) "&[".toList .free :=
      typeset_of_typeset? rfl
    have hclosing : Typeset .last [.closing .bracket] "]".toList .free := typeset_of_typeset? rfl
    have htexts : List.Forall₂ (fun l ts => Typesets .free l ts .word)
        (ts.map fun t => Layout.word (quoteString t)) (ts.map fun t => [Token.str t]) := by
      simp only [List.forall₂_map_left_iff, List.forall₂_map_right_iff]
      exact List.forall₂_same.mpr fun t _ => .word (Token.typeset_one (Edge.free_admits (.str t)))
    have hall := (Typesets.bracketed hopening hclosing htexts).mono (.refl _)
      (Edge.free_allows .word)
    exact typesets_line (hall.cast (by simp [bodyTokens, Token.within]))
  | text t => exact typesets_line (.word (Token.typeset_one (Edge.free_admits (Token.str t))))
  | zero => exact typesets_line (.fixed rfl)
  | read field => exact typesets_line (.word (typeset_field field))
  | values fields =>
    refine hvec fun ts hts e => ?_
    obtain ⟨field, -, rfl⟩ := List.mem_map.mp hts
    simp only [valueTokens, valueType, RuntimePath.tokensOf, Token.edgeAfter_append]
    rfl
  | slots fields =>
    refine hvec fun ts hts e => ?_
    obtain ⟨field, -, rfl⟩ := List.mem_map.mp hts
    simp only [slotTokens, slotType, RuntimePath.tokensOf, Token.edgeAfter_append]
    rfl
  | assign assignments =>
    have hassign : List.Forall₂ (fun l ts => Typesets .free l ts .free)
        (assignments.map assignmentLayout) (assignments.map assignmentTokens) := by
      simp only [List.forall₂_map_left_iff, List.forall₂_map_right_iff]
      exact List.forall₂_same.mpr fun a _ => typesets_assignmentLayout a
    exact (typesets_lines hassign).mono (.refl _) (Edge.free_allows .word)

/-! ## Blocks -/

/-- The layout of an accessor shows its tokens. -/
theorem typesets_layout (a : Accessor) :
    Typesets .free (a.layout runtime) (a.tokens runtime) .free := by
  have hname : Typeset .free ([kw "fn"] ++ [kw a.name] ++ [.opening .paren])
      ("fn " ++ a.name ++ "(").toList .free := by
    have hfn : Typeset .free [kw "fn"] "fn ".toList .free := typeset_of_typeset? rfl
    have hparen : Typeset .word [.opening .paren] "(".toList .free := typeset_of_typeset? rfl
    rw [String.toList_append, String.toList_append]
    exact (hfn.append (Token.typeset_kw a.name)).append hparen
  have hparen : Typesets .last (Layout.word ")") [.closing .paren] .free := .fixed rfl
  have hopening : Typesets .word (Layout.word " \x7b") [.opening .brace] .free := .fixed rfl
  have hclosing : Typesets .word (Layout.word "\x7d") [.closing .brace] .free := .fixed rfl
  refine .cast (.append (.box (.concat_cons (.word hname) (.concat_cons (.seam (by decide))
    (.concat_cons (typesets_paramsLayout runtime a) (.concat_cons hparen (.concat_cons
      (.box (.concat_one (typesets_resultLayout runtime a.result))) (.concat_cons hopening
        (.concat_one (typesets_statements runtime a.body))))))))) hclosing) ?_
  simp [tokens, Token.within]

end Accessor

/-- The layout of a block shows its tokens. -/
theorem RowMapping.typesets_layout (m : RowMapping) (runtime : RuntimePath) :
    Typesets .free (m.layout runtime) (m.tokens runtime) .free := by
  have himpl : Typesets .free (Layout.word "impl") [kw "impl"] .word := .fixed rfl
  have hbound : Typeset .word (runtime.tokensOf ["DbObject"])
      (" " ++ runtime.textOf ["DbObject"]).toList .word := by
    have hblank : Typeset .word [] " ".toList .free := typeset_of_typeset? rfl
    rw [String.toList_append]
    exact hblank.append (runtime.typeset_textOf (List.cons_ne_nil _ _))
  have htype : Typeset .free ([kw "for"] ++ Token.path m.typePath)
      ("for " ++ "::".intercalate (m.typePath.map Ident.text)).toList .word := by
    have hfor : Typeset .free [kw "for"] "for ".toList .free := typeset_of_typeset? rfl
    rw [String.toList_append]
    exact hfor.append (Token.typeset_path (by simp [typePath]))
  have hopening : Typesets .word (Layout.word " \x7b") [.opening .brace] .free := .fixed rfl
  have hclosing : Typesets .free (Layout.word "\x7d") [.closing .brace] .free := .fixed rfl
  have haccessors : List.Forall₂ (fun l ts => Typesets .free l ts .free)
      (m.accessors.map (Accessor.layout runtime)) (m.accessors.map (Accessor.tokens runtime)) := by
    simp only [List.forall₂_map_left_iff, List.forall₂_map_right_iff]
    exact List.forall₂_same.mpr fun a _ => Accessor.typesets_layout runtime a
  have hhead : Typesets .free (Layout.flowing (-Layout.step)
      [Layout.consistent Layout.step [Layout.word "impl"],
        Layout.word (" " ++ runtime.textOf ["DbObject"]), Layout.space,
        Layout.word ("for " ++ "::".intercalate (m.typePath.map Ident.text))])
      ([kw "impl"] ++ runtime.tokensOf ["DbObject"] ++ [kw "for"] ++ Token.path m.typePath)
      .word := by
    refine .cast (.box (.concat_cons (.box (.concat_one himpl)) (.concat_cons (.word hbound)
      (.concat_cons (.space (by decide)) (.concat_one (.word htype)))))) ?_
    simp
  refine .cast (.append (.append (.box (.concat_cons hhead (.concat_cons hopening
    (.concat_one (Accessor.typesets_lines haccessors))))) hclosing) (.newline (by decide) 0)) ?_
  simp [tokens, Token.within, List.flatMap_def]

namespace GeneratedUnit

variable (runtime : RuntimePath)

/-- The layout of the import shows its tokens. -/
theorem typesets_importLayout :
    Typesets .free (importLayout runtime) (importTokens runtime) .free := by
  have hallow : Typesets .free (Layout.word "#[allow(unused_imports)]")
      (op "#" ++ Token.within .bracket (kw "allow" :: Token.within .paren [kw "unused_imports"]))
      .free := .fixed rfl
  have huse : Typeset .free ([kw "use"] ++ runtime.tokens ++ (op "::" ++ [.opening .brace]))
      ("use " ++ runtime.textOf [] ++ "::\x7b").toList .free := by
    have huse : Typeset .free [kw "use"] "use ".toList .free := typeset_of_typeset? rfl
    have hbrace : Typeset .free [.opening .brace] ['\x7b'] .free := Token.typeset_one trivial
    obtain ⟨e, he, hpath⟩ := runtime.typeset_text
    have hall := (huse.append hpath).append ((Token.typeset_separator he).append hbrace)
    simpa [RuntimePath.textOf] using hall
  have hcolumn : Typesets .free (Layout.word "Column as _,")
      ([kw "Column", kw "as", kw "_"] ++ op ",") .free := .fixed rfl
  have hobject : Typesets .free (Layout.word "DbObject as _")
      [kw "DbObject", kw "as", kw "_"] .word := .fixed rfl
  have hclosing : Typesets .last (Layout.word "\x7d;") ([.closing .brace] ++ op ";") .free :=
    .fixed rfl
  have hnames : Typesets .free (Layout.consistent Layout.step [Layout.cut,
      Layout.flowing 0 [Layout.word "Column as _,", Layout.space, Layout.word "DbObject as _"],
      Layout.lastComma (-Layout.step)])
      (Token.commas [[kw "Column", kw "as", kw "_"], [kw "DbObject", kw "as", kw "_"]]) .last :=
    .cast (.box (.concat_cons (.cut (by decide)) (.concat_cons
      (.box (.concat_cons hcolumn (.concat_cons (.space (by decide)) (.concat_one hobject))))
      (.concat_one (.lastComma (.inr rfl) _ (.inl rfl)))))) rfl
  refine .cast (.append (.append (.append (.append (.append hallow (.newline (by decide) 0))
    (.word huse)) hnames) hclosing) (.newline (by decide) 0)) ?_
  simp [importTokens, Token.within]

/-- The layout of a unit shows the import and one block for each mapping. -/
theorem typesets_layout (mappings : List RowMapping) :
    Typesets .free (layout runtime mappings) (tokens runtime mappings) .free := by
  have hblocks : Typesets .free (Layout.concat (mappings.map fun m => m.layout runtime))
      (mappings.flatMap fun m => m.tokens runtime) .free := by
    induction mappings with
    | nil => exact .nil
    | cons m mappings ih => exact (m.typesets_layout runtime).append ih
  exact .box ((typesets_importLayout runtime).append hblocks)

/-- What is written as plain tokens shows them as well. -/
theorem isTypeset_print (mappings : List RowMapping) :
    IsTypeset (tokens runtime mappings) (Token.print (tokens runtime mappings)).toList := by
  have himport : edgeAfter .free (importTokens runtime) = .free := by
    rw [importTokens, Token.edgeAfter_append]
    rfl
  have hblock (m : RowMapping) (e : Edge) : edgeAfter e (m.tokens runtime) = .free := by
    rw [RowMapping.tokens, Token.within, ← List.cons_append, Token.edgeAfter_append,
      Token.edgeAfter_append]
    rfl
  have hblocks : edgeAfter .free (mappings.flatMap fun m => m.tokens runtime) = .free := by
    induction mappings with
    | nil => rfl
    | cons m mappings ih => rw [List.flatMap_cons, Token.edgeAfter_append, hblock, ih]
  rw [Token.print, String.toList_ofList]
  refine Token.isTypeset_printChars ?_
  rw [tokens, Token.edgeAfter_append, himport, hblocks]
  decide

end GeneratedUnit

end TaggedRows
