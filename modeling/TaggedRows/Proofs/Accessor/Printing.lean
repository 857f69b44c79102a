import TaggedRows.Proofs.Accessor.Reading
import TaggedRows.Proofs.RuntimePath.Printing

/-!
# Generated code is read again

Whatever the texts and the identifiers of a mapping are, and whatever the path of the runtime is,
the plain text of its block is read as the tokens of the block, so no text breaks out of its literal
and no two tokens run together.

- **Written identifiers** (`RowMapping.IsWritten`): each is a word, and no raw word that cannot be
  raw.
- **Parts** (`Accessor.rereads_bodyTokens`, `Accessor.rereads_tokens`): one lemma for each part of
  an accessor.
- **Blocks** (`RowMapping.rereads_tokens`, `RowMapping.lex?_print_tokens`).
- **Units** (`GeneratedUnit.rereads_tokens`).
-/

namespace TaggedRows

open Token (Rereads op kw str rereads_word rereads_str rereads_nil rereads_of_template)

namespace Token

theorem rereads_kw {name : String} (h : Lexer.isWordName name = true) : Rereads [kw name] :=
  rereads_word (Lexer.isWritten_plain h)

theorem rereads_commas {items : List (List Token)} (h : ∀ ts ∈ items, Rereads ts) :
    Rereads (commas items) := by
  fun_induction commas items with
  | case1 => exact rereads_nil
  | case2 ts => exact h ts List.mem_cons_self
  | case3 ts more _ ih =>
    have hcomma : Rereads (op ",") := rereads_of_template (by decide)
    exact ((h ts List.mem_cons_self).append hcomma).append
      (ih fun us hus => h us (List.mem_cons_of_mem ts hus))

theorem rereads_path {ids : List Ident} (h : ∀ id ∈ ids, id.IsWritten) : Rereads (path ids) := by
  fun_induction path ids with
  | case1 => exact rereads_nil
  | case2 id => exact rereads_word (h id List.mem_cons_self)
  | case3 id ids _ ih =>
    have hseparator : Rereads (op "::") := rereads_of_template (by decide)
    exact (rereads_word (h id List.mem_cons_self)).append
      (hseparator.append (ih fun id' hid => h id' (List.mem_cons_of_mem id hid)))

theorem rereads_vecOf {type : List Token} (h : Rereads type) : Rereads (vecOf type) := by
  have hname : Rereads (rootPath ["std", "vec", "Vec"] ++ op "<") :=
    rereads_of_template (by decide)
  exact (hname.append h).append (rereads_of_template (by decide))

/-- The number zero. -/
theorem rereads_zero : Rereads [.literal ⟨.number, "0"⟩] := by
  have hliteral : Lexer.literal? ['0'] = some (.number, []) := by decide
  have hspelled := Lexer.isSpelled_of_literal? rfl (by decide) hliteral
  exact ⟨.spelled hspelled .nil, closed_of_delimiters rfl⟩

end Token

/-! ## Written identifiers -/

/-- The fields and parameters of the body can be written. -/
def Body.IsWritten : Body → Prop
  | .read field => field.IsWritten
  | .values fields => ∀ field ∈ fields, field.IsWritten
  | .slots fields => ∀ field ∈ fields, field.IsWritten
  | .assign assignments => ∀ a ∈ assignments,
      a.field.IsWritten ∧ Lexer.isWordName a.param = true
  | _ => True

/-- The names and the body of the accessor can be written. -/
structure Accessor.IsWritten (a : Accessor) : Prop where
  name : Lexer.isWordName a.name = true
  params : ∀ p ∈ a.params, Lexer.isWordName p.name = true
  body : a.body.IsWritten

namespace RowMapping

variable {m : RowMapping}

/-- The identifiers of the mapping can be written. -/
structure IsWritten (m : RowMapping) : Prop where
  typePath : ∀ id ∈ m.typePath, id.IsWritten
  fields : ∀ entry ∈ m.selected, entry.field.IsWritten
  audit : ∀ id ∈ m.userAudit.toList ++ m.timeAudit.toList, id.IsWritten

theorem IsWritten.key (h : m.IsWritten) : ∀ entry ∈ m.key, entry.field.IsWritten :=
  fun entry he => h.fields entry (List.mem_append_left _ (Option.mem_toList.mpr he))

theorem IsWritten.columns (h : m.IsWritten) : ∀ entry ∈ m.columns, entry.field.IsWritten :=
  fun entry he => h.fields entry (List.mem_append_right _ he)

theorem IsWritten.fieldsOf {entries : List MappedField}
    (h : ∀ entry ∈ entries, entry.field.IsWritten) :
    ∀ field ∈ entries.map MappedField.field, field.IsWritten := fun field hf => by
  obtain ⟨entry, he, rfl⟩ := List.mem_map.mp hf
  exact h entry he

theorem IsWritten.updateMembers (h : m.IsWritten) : ∀ field ∈ m.updateMembers,
    field.IsWritten := by
  intro field hf
  rcases List.mem_append.mp hf with hf | hf
  · refine IsWritten.fieldsOf (fun entry he => ?_) field hf
    exact h.columns entry (List.mem_filter.mp he).1
  · obtain ⟨entry, he, rfl⟩ := Option.map_eq_some_iff.mp (Option.mem_toList.mp hf)
    exact h.key entry he

theorem isWordName_paramName (name : String) (h : Lexer.isWordName name = true)
    (hlow : Lexer.isWordName ("_" ++ name) = true) (isUsed : Bool) :
    Lexer.isWordName (Accessor.paramName name isUsed) = true := by
  cases isUsed
  · exact hlow
  · exact h

theorem IsWritten.modifiedBy (h : m.IsWritten) : m.modifiedByAccessor.IsWritten := by
  have huser := isWordName_paramName "user" (by decide) (by decide) m.userAudit.isSome
  have htime := isWordName_paramName "at" (by decide) (by decide) m.timeAudit.isSome
  have hname : Lexer.isWordName "modified_by" = true := by decide
  refine ⟨hname, ?_, ?_⟩
  · intro p hp
    simp only [modifiedByAccessor, List.mem_cons, List.not_mem_nil, or_false] at hp
    rcases hp with rfl | rfl
    · exact huser
    · exact htime
  · intro a ha
    rcases List.mem_append.mp ha with ha | ha
    · obtain ⟨id, hid, rfl⟩ := Option.map_eq_some_iff.mp (Option.mem_toList.mp ha)
      exact ⟨h.audit id (List.mem_append_left _ (Option.mem_toList.mpr hid)), huser⟩
    · obtain ⟨id, hid, rfl⟩ := Option.map_eq_some_iff.mp (Option.mem_toList.mp ha)
      exact ⟨h.audit id (List.mem_append_right _ (Option.mem_toList.mpr hid)), htime⟩

theorem IsWritten.keyAccessor (h : m.IsWritten) : m.keyAccessor.IsWritten := by
  have hname : Lexer.isWordName "key" = true := by decide
  refine ⟨hname, nofun, ?_⟩
  unfold RowMapping.keyAccessor
  cases hk : m.key with
  | none => trivial
  | some entry => exact h.key entry hk

theorem IsWritten.setIdAccessor (h : m.IsWritten) : m.setIdAccessor.IsWritten := by
  have hname : Lexer.isWordName "set_id" = true := by decide
  unfold RowMapping.setIdAccessor
  cases hk : m.key with
  | none => exact ⟨hname, fun p hp => List.mem_singleton.mp hp ▸ rfl, nofun⟩
  | some entry =>
    refine ⟨hname, fun p hp => List.mem_singleton.mp hp ▸ rfl, fun a ha => ?_⟩
    cases List.mem_singleton.mp ha
    have hid : Lexer.isWordName "id" = true := by decide
    exact ⟨h.key entry hk, hid⟩

/-- Every accessor of a mapping with written identifiers can be written. -/
theorem IsWritten.accessors (h : m.IsWritten) : ∀ a ∈ m.accessors, a.IsWritten := by
  have fixed : ∀ {name receiver result body}, Lexer.isWordName name = true →
      body.IsWritten → Accessor.IsWritten ⟨name, receiver, [], result, body⟩ :=
    fun hname hbody => ⟨hname, nofun, hbody⟩
  simp only [RowMapping.accessors, List.forall_mem_cons]
  exact ⟨fixed rfl trivial, fixed rfl trivial, fixed rfl trivial, fixed rfl trivial,
    fixed rfl trivial, fixed rfl trivial, fixed rfl trivial, fixed rfl trivial,
    h.keyAccessor, h.setIdAccessor, fixed rfl (fieldsOf h.columns), fixed rfl h.updateMembers,
    fixed rfl (fieldsOf h.fields), h.modifiedBy, List.forall_mem_nil _⟩

end RowMapping

/-! ## Parts of an accessor -/

namespace RuntimePath

theorem rereads_tokensOf {runtime : RuntimePath} (h : Rereads runtime.tokens) {names : List String}
    (hnames : ∀ n ∈ names, Lexer.isWordName n = true) : Rereads (runtime.tokensOf names) := by
  refine h.append (.flatMap fun n hn => ?_)
  have hseparator : Rereads (op "::") := rereads_of_template (by decide)
  exact hseparator.append (Token.rereads_kw (hnames n hn))

end RuntimePath

namespace Accessor

open RuntimePath (rereads_tokensOf)
open Token (rereads_kw rereads_commas)

variable {runtime : RuntimePath} (hr : Rereads runtime.tokens)
include hr

theorem rereads_valueType : Rereads (valueType runtime) := by
  have hlead : Rereads (op "&" ++ [kw "dyn"]) := rereads_of_template (by decide)
  exact hlead.append (rereads_tokensOf hr (by decide))

theorem rereads_slotType : Rereads (slotType runtime) := by
  have hlead : Rereads (op "&" ++ [kw "mut", kw "dyn"]) := rereads_of_template (by decide)
  exact hlead.append (rereads_tokensOf hr (by decide))

theorem rereads_paramTypeTokens (type : ParamType) : Rereads (paramTypeTokens runtime type) := by
  cases type with
  | id => exact rereads_kw (by decide)
  | time =>
    have hless : Rereads (op "<") := rereads_of_template (by decide)
    exact (((rereads_tokensOf hr (by decide)).append hless).append
      (rereads_tokensOf hr (by decide))).append (rereads_of_template (by decide))

theorem rereads_resultTokens (type : ResultType) : Rereads (resultTokens runtime type) := by
  have harrow : Rereads (op "->") := rereads_of_template (by decide)
  cases type with
  | values => exact harrow.append (Token.rereads_vecOf (rereads_valueType hr))
  | slots => exact harrow.append (Token.rereads_vecOf (rereads_slotType hr))
  | object => exact rereads_of_template rfl
  | texts => exact rereads_of_template rfl
  | text => exact rereads_of_template rfl
  | id => exact rereads_of_template rfl
  | nothing => exact rereads_nil

theorem rereads_paramsTokens {a : Accessor} (h : a.IsWritten) :
    Rereads (paramsTokens runtime a) := by
  refine (rereads_commas fun ts hts => ?_).append ?_
  · rcases List.mem_append.mp hts with hts | hts
    · cases hreceiver : a.receiver with
      | none =>
        rw [hreceiver] at hts
        cases hts
      | shared =>
        rw [hreceiver] at hts
        cases List.mem_singleton.mp hts
        exact rereads_of_template (by decide)
      | exclusive =>
        rw [hreceiver] at hts
        cases List.mem_singleton.mp hts
        exact rereads_of_template (by decide)
    · obtain ⟨p, hp, rfl⟩ := List.mem_map.mp hts
      have hcolon : Rereads (op ":") := rereads_of_template (by decide)
      exact ((rereads_kw (h.params p hp)).append hcolon).append
        (rereads_paramTypeTokens hr p.type)
  · split
    · exact rereads_of_template (by decide)
    · exact rereads_nil

omit hr in
theorem rereads_fieldTokens {field : Ident} (h : field.IsWritten) :
    Rereads (fieldTokens field) := by
  have hlead : Rereads ([kw "self"] ++ op ".") := rereads_of_template (by decide)
  exact hlead.append (rereads_word h)

omit hr in
theorem rereads_vecArgs {items : List (List Token)} (h : ∀ ts ∈ items, Rereads ts) :
    Rereads (vecArgs items) := by
  have hname : Rereads (Token.rootPath ["std", "vec"] ++ op "!") :=
    rereads_of_template (by decide)
  exact hname.append ((rereads_commas h).within .bracket)

omit hr in
theorem rereads_assignmentTokens {a : Assignment} (hfield : a.field.IsWritten)
    (hparam : Lexer.isWordName a.param = true) : Rereads (assignmentTokens a) := by
  have hequals : Rereads (op "=") := rereads_of_template (by decide)
  refine (((rereads_fieldTokens hfield).append hequals).append ?_).append
    (rereads_of_template (by decide))
  split
  · have hfrom : Rereads (Token.rootPath ["core", "convert", "From", "from"]) :=
      rereads_of_template (by decide)
    exact hfrom.append ((rereads_kw hparam).within .paren)
  · exact rereads_kw hparam

theorem rereads_bodyTokens {body : Body} (h : body.IsWritten) :
    Rereads (bodyTokens runtime body) := by
  have hand : Rereads (op "&") := rereads_of_template (by decide)
  have has : Rereads [kw "as"] := rereads_of_template (by decide)
  cases body with
  | fresh => exact rereads_of_template rfl
  | texts ts =>
    refine hand.append ((rereads_commas fun us hus => ?_).within .bracket)
    obtain ⟨t, -, rfl⟩ := List.mem_map.mp hus
    exact rereads_str t
  | text t => exact rereads_str t
  | zero => exact Token.rereads_zero
  | read field => exact rereads_fieldTokens h
  | values fields =>
    refine rereads_vecArgs fun us hus => ?_
    obtain ⟨field, hfield, rfl⟩ := List.mem_map.mp hus
    exact ((hand.append (rereads_fieldTokens (h field hfield))).append has).append
      (rereads_valueType hr)
  | slots fields =>
    refine rereads_vecArgs fun us hus => ?_
    obtain ⟨field, hfield, rfl⟩ := List.mem_map.mp hus
    have hmut : Rereads (op "&" ++ [kw "mut"]) := rereads_of_template (by decide)
    exact ((hmut.append (rereads_fieldTokens (h field hfield))).append has).append
      (rereads_slotType hr)
  | assign assignments =>
    exact .flatMap fun a ha => rereads_assignmentTokens (h a ha).1 (h a ha).2

theorem rereads_tokens {a : Accessor} (h : a.IsWritten) : Rereads (a.tokens runtime) := by
  have hlead : Rereads ([kw "fn"] ++ [kw a.name]) :=
    (rereads_kw (by decide)).append (rereads_kw h.name)
  exact ((hlead.append ((rereads_paramsTokens hr h).within .paren)).append
    (rereads_resultTokens hr a.result)).append ((rereads_bodyTokens hr h.body).within .brace)

/-- The constant texts in the accessor. -/
def texts (a : Accessor) : List String :=
  match a.body with
  | .texts ts => ts
  | .text t => [t]
  | _ => []

end Accessor

/-! ## Blocks and units -/

namespace RowMapping

theorem rereads_tokens {runtime : RuntimePath} (hr : Rereads runtime.tokens) {m : RowMapping}
    (h : m.IsWritten) : Rereads (m.tokens runtime) := by
  have himpl : Rereads [kw "impl"] := rereads_of_template (by decide)
  have hfor : Rereads [kw "for"] := rereads_of_template (by decide)
  exact (((himpl.append (RuntimePath.rereads_tokensOf hr (by decide))).append hfor).append
    (Token.rereads_path h.typePath)).append
      ((Rereads.flatMap fun a ha => Accessor.rereads_tokens hr (h.accessors a ha)).within .brace)

end RowMapping

namespace GeneratedUnit

/-- The tokens of a unit are read again from their plain text. -/
theorem rereads_tokens {runtime : RuntimePath} (hr : Rereads runtime.tokens)
    {mappings : List RowMapping} (h : ∀ m ∈ mappings, m.IsWritten) :
    Rereads (tokens runtime mappings) := by
  have hallow : Rereads (op "#" ++
      Token.within .bracket (kw "allow" :: Token.within .paren [kw "unused_imports"]) ++
      [kw "use"]) := rereads_of_template (by decide)
  have hnames : Rereads (op "::" ++ Token.within .brace (Token.commas
      [[kw "Column", kw "as", kw "_"], [kw "DbObject", kw "as", kw "_"]]) ++ op ";") :=
    rereads_of_template (by decide)
  have himport : Rereads (importTokens runtime) := by
    have hall := (hallow.append hr).append hnames
    simpa only [importTokens, List.append_assoc] using hall
  exact himport.append (.flatMap fun m hm => RowMapping.rereads_tokens hr (h m hm))

end GeneratedUnit

namespace RowMapping

open Accessor.Reader RuntimePath

/-- The plain text of the block of a mapping is read as the tokens that it was printed from, for
every path of the runtime and all texts and identifiers of the mapping. What is read is a block for
the type with the accessors of the mapping, the constants of which are the names of its fields, its
table, its key and its lists of columns. -/
theorem lex?_print_tokens {text : String} {runtime : RuntimePath}
    (hr : RuntimePath.parse? text = some runtime) {m : RowMapping} (hm : m.IsWritten) :
    Token.lex? (Token.print (m.tokens runtime)) = some (m.tokens runtime) ∧
    block? runtime (m.tokens runtime) = some (m.typePath, m.accessors) ∧
    m.accessors.flatMap Accessor.texts = m.memberNames ++
      [m.table, m.keyColumn, m.keyName, m.selectFields, m.insertFields, m.updateFields] := by
  refine ⟨?_, ?_, ?_⟩
  · exact Token.lex?_print (rereads_tokens (rereads_of_parse? hr) hm)
  · exact block?_tokens (hasArguments_of_parse? hr) m
  · unfold accessors keyAccessor setIdAccessor
    cases m.key <;> simp [Accessor.texts, Accessor.constant, modifiedByAccessor]

/-- A mapping with a quote, a backslash, NUL in front of a digit and a line break in its texts, and
with keywords for names. -/
def hostile : RowMapping where
  ident := .plain "T"
  modulePath := [⟨true, "mod"⟩]
  table := "\"]; drop \\"
  key := some ⟨⟨true, "type"⟩, "\x007"⟩
  columns := [⟨.plain "_", "a\nb"⟩]
  userAudit := none
  timeAudit := some ⟨true, "fn"⟩
  fixedColumns := []

theorem isWritten_hostile : hostile.IsWritten := by
  have hraw : ∀ name, Lexer.isWordName name = true → name ∉ Ident.unrawable →
      Ident.IsWritten ⟨true, name⟩ := fun name hname hraw =>
    ⟨(Lexer.isWritten_plain hname).word, fun _ => hraw⟩
  have hplain : ∀ name, Lexer.isWordName name = true → (Ident.plain name).IsWritten :=
    fun name hname => Lexer.isWritten_plain hname
  refine ⟨?_, ?_, ?_⟩
  · simp only [hostile, typePath, List.cons_append, List.nil_append, List.forall_mem_cons]
    exact ⟨hraw "mod" (by decide) (by decide), hplain "T" (by decide), List.forall_mem_nil _⟩
  · simp only [hostile, selected, Option.toList, List.cons_append, List.nil_append,
      List.forall_mem_cons]
    exact ⟨hraw "type" (by decide) (by decide), hplain "_" (by decide), List.forall_mem_nil _⟩
  · simp only [hostile, Option.toList, List.nil_append, List.forall_mem_cons]
    exact ⟨hraw "fn" (by decide) (by decide), List.forall_mem_nil _⟩

theorem lex?_print_tokens_hostile :
    Token.lex? (Token.print (hostile.tokens .default)) = some (hostile.tokens .default) ∧
    block? .default (hostile.tokens .default) = some (hostile.typePath, hostile.accessors) ∧
    hostile.accessors.flatMap Accessor.texts =
      ["type", "_", "\"]; drop \\", "\x007", "type", "\x007,a\nb", "a\nb", "a\nb"] :=
  lex?_print_tokens RuntimePath.parse?_defaultText isWritten_hostile

end RowMapping

end TaggedRows
