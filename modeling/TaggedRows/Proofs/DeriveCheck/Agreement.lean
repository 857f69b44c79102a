import TaggedRows.DeriveCheck
import TaggedRows.Proofs.Accessor.Contract
import TaggedRows.Proofs.SourceSet.Scan

/-!
# The check at the declaration and the scan

- **Types of keys** (`isKeyType_iff`): the check knows the spellings of the 64-bit integer
  (`SpellsKeyType`) and no others.
- **Verdicts** (`structFault?_eq_some`): a struct is refused exactly if it cannot be described, or
  if its key has some other type (`Faulty`).
- **Agreement** (`check_agrees_with_scan`): a file of structs that are not refused can be scanned,
  and the generated code uses a field as the key only if its type is spelled so.
-/

namespace TaggedRows

open Source

/-! ## Types of keys -/

/-- No generic arguments: no list of them, or an empty one. -/
inductive NoArguments : List Token → Prop where
  | none : NoArguments []
  | empty (j k : Bool) : NoArguments [.punct '<' j, .punct '>' k]
  | emptyBehindSeparator (i j k : Bool) :
    NoArguments [.punct ':' true, .punct ':' i, .punct '<' j, .punct '>' k]

/-- A path of plain names without generic arguments. -/
inductive SpellsPath : List String → List Token → Prop where
  | last (name : String) {args : List Token} (h : NoArguments args) :
    SpellsPath [name] (.kw name :: args)
  | cons (name : String) {names : List String} {args ts : List Token} (j : Bool)
    (h : NoArguments args) (hrest : SpellsPath names ts) :
    SpellsPath (name :: names) (.kw name :: (args ++ .punct ':' true :: .punct ':' j :: ts))

/-- The paths of the 64-bit integer. -/
def keyTypePaths : List (List String) :=
  [["i64"], ["std", "primitive", "i64"], ["core", "primitive", "i64"]]

/-- The type is spelled as the 64-bit integer, with or without a separator in front. -/
def SpellsKeyType (type : List Token) : Prop :=
  ∃ names ∈ keyTypePaths, SpellsPath names type ∨
    ∃ j path, type = .punct ':' true :: .punct ':' j :: path ∧ SpellsPath names path

theorem exists_append_dropEmptyArguments (ts : List Token) :
    ∃ args, NoArguments args ∧ args ++ dropEmptyArguments ts = ts := by
  unfold dropEmptyArguments
  split
  · exact ⟨_, .emptyBehindSeparator _ _ _, rfl⟩
  · exact ⟨_, .empty _ _, rfl⟩
  · exact ⟨[], .none, rfl⟩

theorem NoArguments.dropEmptyArguments_eq {args : List Token} (h : NoArguments args) :
    dropEmptyArguments args = [] := by
  cases h <;> rfl

theorem SpellsPath.exists_cons {names : List String} {ts : List Token} (h : SpellsPath names ts) :
    ∃ name rest, ts = .kw name :: rest := by
  cases h with
  | last name => exact ⟨name, _, rfl⟩
  | cons name => exact ⟨name, _, rfl⟩

/-- A path goes on behind a separator, whatever stands for no arguments in front of it. -/
theorem NoArguments.dropEmptyArguments_append {args : List Token} (h : NoArguments args)
    {names : List String} {ts : List Token} (hts : SpellsPath names ts) (j : Bool) :
    dropEmptyArguments (args ++ .punct ':' true :: .punct ':' j :: ts) =
      .punct ':' true :: .punct ':' j :: ts := by
  obtain ⟨name, rest, rfl⟩ := hts.exists_cons
  cases h <;> rfl

theorem pathNames?_of_spells {names : List String} {ts : List Token} (h : SpellsPath names ts)
    {fuel : Nat} (hfuel : ts.length ≤ fuel) : pathNames? fuel ts = some names := by
  induction h generalizing fuel with
  | last name h =>
    obtain ⟨fuel, rfl⟩ : ∃ n, fuel = n + 1 := ⟨fuel - 1, by simp at hfuel; omega⟩
    simp only [Token.kw, pathNames?, h.dropEmptyArguments_eq]
    rfl
  | cons name j h hrest ih =>
    obtain ⟨fuel, rfl⟩ : ∃ n, fuel = n + 1 := ⟨fuel - 1, by simp at hfuel; omega⟩
    simp only [Token.kw, pathNames?, h.dropEmptyArguments_append hrest]
    rw [ih (by simp at hfuel; omega)]
    rfl

/-- A name that cannot be taken for a raw prefix. -/
theorem eq_plain_of_text {id : Ident} {name : String} (h : id.text = name)
    (hname : name.toList.head? ≠ some 'r') : id = .plain name := by
  obtain ⟨raw, text⟩ := id
  cases raw with
  | false =>
    obtain rfl : text = name := h
    rfl
  | true =>
    refine absurd ?_ hname
    rw [← h, Ident.text, if_pos rfl, String.toList_append]
    rfl

theorem spells_of_pathNames? {fuel : Nat} {ts : List Token} {names : List String}
    (h : pathNames? fuel ts = some names)
    (hnames : ∀ name ∈ names, name.toList.head? ≠ some 'r') : SpellsPath names ts := by
  fun_induction pathNames? fuel ts generalizing names with
  | case1 fuel id ts hdrop =>
    cases h
    obtain ⟨args, hargs, hts⟩ := exists_append_dropEmptyArguments ts
    rw [hdrop, List.append_nil] at hts
    have hid : id = .plain id.text := eq_plain_of_text rfl (hnames _ List.mem_cons_self)
    rw [hid, ← hts]
    exact .last _ hargs
  | case2 fuel id ts j rest hdrop ih =>
    obtain ⟨others, hothers, rfl⟩ := Option.map_eq_some_iff.mp h
    obtain ⟨args, hargs, hts⟩ := exists_append_dropEmptyArguments ts
    rw [List.forall_mem_cons] at hnames
    have hid : id = .plain id.text := eq_plain_of_text rfl hnames.1
    rw [hid, ← hts, hdrop]
    exact .cons _ j hargs (ih hothers hnames.2)
  | case3 => cases h
  | case4 => cases h

theorem isKeyType_eq (type : List Token) : isKeyType type = true ↔
    ∃ names ∈ keyTypePaths, pathNames? type.length (dropLeadingSeparator type) = some names := by
  rw [isKeyType]
  split
  · next only h => simp [keyTypePaths, h]
  · next root module name h =>
    simp only [keyTypePaths, h, List.mem_cons, List.not_mem_nil, or_false, Bool.and_eq_true,
      decide_eq_true_eq, exists_eq_or_imp, exists_eq_left, Option.some.injEq, List.cons.injEq,
      and_true, reduceCtorEq, and_false, false_or]
    rw [or_and_right, or_and_right, and_assoc, and_assoc]
  · next h h' =>
    simp only [Bool.false_eq_true, false_iff, not_exists, not_and]
    intro names hnames heq
    simp only [keyTypePaths, List.mem_cons, List.not_mem_nil, or_false] at hnames
    rcases hnames with rfl | rfl | rfl
    · exact h _ heq
    · exact h' _ _ _ heq
    · exact h' _ _ _ heq

/-- The check knows the spellings of the 64-bit integer. -/
theorem isKeyType_iff (type : List Token) : isKeyType type = true ↔ SpellsKeyType type := by
  rw [isKeyType_eq, SpellsKeyType]
  refine exists_congr fun names => and_congr_right fun hnames => ?_
  have hplain : ∀ name ∈ names, name.toList.head? ≠ some 'r' := by
    simp only [keyTypePaths, List.mem_cons, List.not_mem_nil, or_false] at hnames
    rcases hnames with rfl | rfl | rfl <;> decide
  constructor
  · intro h
    have hspells := spells_of_pathNames? h hplain
    unfold dropLeadingSeparator at hspells
    split at hspells
    · exact .inr ⟨_, _, rfl, hspells⟩
    · exact .inl hspells
  · rintro (h | ⟨j, path, rfl, h⟩)
    · have hdrop : dropLeadingSeparator type = type := by
        obtain ⟨name, rest, rfl⟩ := h.exists_cons
        rfl
      rw [hdrop]
      exact pathNames?_of_spells h le_rfl
    · refine pathNames?_of_spells h ?_
      simp only [List.length_cons]
      omega

/-! ## Verdicts -/

/-- What is wrong with a struct: it cannot be described, or its key has some other type. -/
inductive Faulty (decl : StructDecl) : DeclarationFault → Prop where
  | mapping {cause : Failure} (h : (mappingOfStruct decl).result = .error cause) :
    Faulty decl (.mapping cause)
  | keyType {m : RowMapping} {key : MappedField} {fields : List FieldDecl} {f : FieldDecl}
    (hm : (mappingOfStruct decl).result = .ok (some m)) (hkey : m.key = some key)
    (hfields : decl.fields = .named fields) (hf : f ∈ fields) (hident : f.ident = key.field)
    (htype : ¬ SpellsKeyType f.type) : Faulty decl (.keyType key.field.name)

/-- The names of the fields. -/
def Source.Fields.idents : Fields → List Ident
  | .named fields => fields.map (·.ident)
  | .positional => []

section

variable {decl : StructDecl} {fields : List FieldDecl} {m : RowMapping} {key : MappedField}

/-- The key of a mapping is one of the fields. -/
theorem key_mem_of_mappingOfStruct (hfields : decl.fields = .named fields)
    (hm : (mappingOfStruct decl).result = .ok (some m)) (hkey : m.key = some key) :
    ∃ f ∈ fields, f.ident = key.field := by
  obtain ⟨tagged, ht, ho⟩ := ofFields_of_mappingOfStruct hfields hm
  obtain ⟨tags, rfl, hidents⟩ := exists_tags_of_taggedFields ht
  have hmem : key ∈ keyFields (tags.map TaggedField.ofTag) := by
    rw [keyFields, ← (RowMapping.describes_of_ofFields ho).key, hkey]
    exact List.mem_singleton_self key
  have heq : (tags.map TaggedField.ofTag).map (·.ident) = fields.map (·.ident) := by
    rw [← hidents, List.map_map]
    rfl
  exact List.mem_map.mp (heq ▸ field_mem_of_mem_stored (List.mem_append_left _ hmem))

/-- The check looks at the type of a field that is the key. -/
theorem keyFault?_eq (hfields : decl.fields = .named fields)
    (hm : (mappingOfStruct decl).result = .ok (some m)) (hkey : m.key = some key) :
    ∃ f ∈ fields, f.ident = key.field ∧ keyFault? decl (some m) =
      if isKeyType f.type then none else some (.keyType key.field.name) := by
  rw [keyFault?, hfields, Option.bind_some, hkey]
  cases hfind : fields.find? fun f => f.ident = key.field with
  | none =>
    obtain ⟨f, hf, hident⟩ := key_mem_of_mappingOfStruct hfields hm hkey
    exact absurd (decide_eq_true hident) (List.find?_eq_none.mp hfind f hf)
  | some f =>
    exact ⟨f, List.mem_of_find?_eq_some hfind, by simpa using List.find?_some hfind,
      by simp [hfind]⟩

/-- Without a key there is nothing to look at. -/
theorem keyFault?_of_keyless {mapping : Option RowMapping}
    (h : mapping.bind RowMapping.key = none) : keyFault? decl mapping = none := by
  rw [keyFault?, h]
  cases decl.fields <;> rfl

end

/-- A struct is refused exactly for what is wrong with it. -/
theorem structFault?_eq_some {decl : StructDecl} (hn : decl.fields.idents.Nodup)
    (fault : DeclarationFault) : (structFault? decl).2 = some fault ↔ Faulty decl fault := by
  simp only [structFault?]
  constructor
  · intro h
    split at h
    · next cause hr =>
      cases h
      exact .mapping hr
    · next mapping hr =>
      cases hkey : mapping.bind RowMapping.key with
      | none =>
        rw [keyFault?_of_keyless hkey] at h
        cases h
      | some key =>
        obtain ⟨m, rfl, hkey⟩ := Option.bind_eq_some_iff.mp hkey
        obtain ⟨fields, hfields⟩ := named_of_mappingOfStruct hr
        obtain ⟨f, hf, hident, hfault⟩ := keyFault?_eq hfields hr hkey
        rw [hfault] at h
        split at h
        · cases h
        · next htype =>
          cases h
          exact .keyType hr hkey hfields hf hident fun hs =>
            htype ((isKeyType_iff f.type).mpr hs)
  · rintro (h | ⟨hm, hkey, hfields, hf, hident, htype⟩)
    · rw [h]
    · obtain ⟨f, hf', hident', hfault⟩ := keyFault?_eq hfields hm hkey
      rw [hfields] at hn
      obtain rfl := List.inj_on_of_nodup_map hn hf hf' (hident.trans hident'.symm)
      rw [← isKeyType_iff] at htype
      rw [hm]
      exact hfault.trans (if_neg htype)

/-! ## Agreement -/

/-- The fields that a body reads or writes. -/
def Body.touched : Body → List Ident
  | .read field => [field]
  | .values fields => fields
  | .slots fields => fields
  | .assign assignments => assignments.map (·.field)
  | _ => []

theorem eq_of_mem_accessors {m : RowMapping} {a : Accessor} (ha : a ∈ m.accessors)
    (hname : a.name = "key" ∨ a.name = "set_id") : a = m.keyAccessor ∨ a = m.setIdAccessor := by
  simp only [RowMapping.accessors, List.mem_cons, List.not_mem_nil, or_false] at ha
  rcases ha with rfl | rfl | rfl | rfl | rfl | rfl | rfl | rfl | rfl | rfl | rfl | rfl | rfl | rfl
  case inr.inr.inr.inr.inr.inr.inr.inr.inl => exact .inl rfl
  case inr.inr.inr.inr.inr.inr.inr.inr.inr.inl => exact .inr rfl
  all_goals simp [Accessor.constant, RowMapping.modifiedByAccessor] at hname

/-- The accessors of the key touch no field but the key. -/
theorem touched_of_mem_accessors {m : RowMapping} {a : Accessor} (ha : a ∈ m.accessors)
    (hname : a.name = "key" ∨ a.name = "set_id") {field : Ident} (h : field ∈ a.body.touched) :
    ∃ key, m.key = some key ∧ key.field = field := by
  cases hkey : m.key with
  | none =>
    rcases eq_of_mem_accessors ha hname with rfl | rfl <;>
      simp [RowMapping.keyAccessor, RowMapping.setIdAccessor, hkey, Body.touched] at h
  | some key =>
    refine ⟨key, rfl, ?_⟩
    rcases eq_of_mem_accessors ha hname with rfl | rfl <;>
      simpa [RowMapping.keyAccessor, RowMapping.setIdAccessor, hkey, Body.touched, eq_comm] using h

/-- Tokens that are one struct are read as its declaration. -/
theorem structOfTokens?_eq {piece : List Token} {decl decl' : StructDecl}
    (h : DeclaresStruct piece decl) (h' : structOfTokens? piece = some decl') : decl' = decl := by
  obtain ⟨ts, hcore, hdecl⟩ := h
  rw [itemCore] at hcore
  rw [structOfTokens?] at h'
  split at h'
  · rw [hcore] at h'
    exact Option.some.inj (h'.symm.trans hdecl)
  · cases h'

/-- A struct that is not refused is described, and its key has the right type. -/
theorem accepted_of_declarationFault? {piece : List Token} {decl : StructDecl}
    (h : DeclaresStruct piece decl) (hfault : (declarationFault? piece).2 = none) :
    (structFault? decl).2 = none := by
  rw [declarationFault?] at hfault
  split at hfault
  · next decl' hdecl =>
    rwa [structOfTokens?_eq h hdecl] at hfault
  · cases hfault

theorem exists_of_accepted {decl : StructDecl} (h : (structFault? decl).2 = none) :
    ∃ mapping, (mappingOfStruct decl).result = .ok mapping ∧
      ∀ m key, mapping = some m → m.key = some key → ∃ fields, decl.fields = .named fields ∧
        ∃ f ∈ fields, f.ident = key.field ∧ SpellsKeyType f.type := by
  simp only [structFault?] at h
  split at h
  · cases h
  · next mapping hr =>
    refine ⟨mapping, hr, ?_⟩
    rintro m key rfl hkey
    obtain ⟨fields, hfields⟩ := named_of_mappingOfStruct hr
    obtain ⟨f, hf, hident, hfault⟩ := keyFault?_eq hfields hr hkey
    rw [hfault] at h
    split at h
    · next htype => exact ⟨fields, hfields, f, hf, hident, (isKeyType_iff f.type).mp htype⟩
    · cases h

/-- A file that is made of structs only. -/
theorem exists_declaresStruct {ts : List Token} {items : List Item}
    (hitems : itemsOfTokens? ts = some items)
    (h : ∀ piece ∈ itemPieces (dropInnerAttributes ts), ∃ decl, DeclaresStruct piece decl)
    {s : PlacedStruct} (hs : s ∈ placedStructs [] items) :
    ∃ piece ∈ itemPieces (dropInnerAttributes ts), DeclaresStruct piece s.decl := by
  obtain ⟨l, hl, hplaced⟩ := lists_placedStructs hitems
  rw [hplaced] at hs
  obtain ⟨⟨n, s⟩, hmem, rfl⟩ := List.mem_map.mp hs
  obtain ⟨before, piece, after, k, hpieces, hdeclared, -⟩ := (hl.mem_iff n s).mp hmem
  have hpiece : piece ∈ itemPieces (dropInnerAttributes ts) := by simp [hpieces]
  cases hdeclared with
  | struct hdecl => exact ⟨piece, hpiece, hdecl⟩
  | module hm =>
    obtain ⟨decl, hdecl⟩ := h piece hpiece
    exact absurd hm (not_opensModule_of_declaresStruct hdecl)

/-- A file that includes the generated code can be scanned if its structs can be described. -/
theorem scan_eq_ok_of_described {set : SourceSet} {file : SourceFile} (hfiles : set.files = [file])
    (hmodule : file.module = none) (h : ∀ s ∈ placedStructs [] file.items,
      ∃ mapping, (mappingOfStruct s.decl).result = .ok mapping) (wanted : Option String) :
    (set.scan wanted).result =
      .ok (file.mappings ((placedStructs [] file.items).filter (·.named wanted))) := by
  have hprefix : file.modulePrefix = .ok [] := by rw [SourceFile.modulePrefix, hmodule]
  have hfailures : file.failures ((placedStructs [] file.items).filter (·.named wanted)) = [] := by
    rw [SourceFile.failures, hprefix, List.append_eq_nil_iff, List.filterMap_eq_nil_iff]
    refine ⟨fun s hs => ?_, by split <;> simp_all⟩
    obtain ⟨mapping, hr⟩ := h s (List.mem_of_mem_filter hs)
    rw [PlacedStruct.failure?, hr]
  rw [SourceSet.scan, SourceSet.result_scan_go, hfiles]
  simp [hfailures, firstOr]

/-- The check refuses a struct exactly for what is wrong with it. A file of structs that are not
refused, which includes the generated code, can be scanned for all structs and for any name; and
what the accessors of the key read and write in the generated blocks is a field of one of the
structs, whose type is spelled as the 64-bit integer. -/
theorem check_agrees_with_scan :
    (∀ (ts : List Token) (decl : StructDecl), structOfTokens? ts = some decl →
      decl.fields.idents.Nodup →
        ∀ fault, (declarationFault? ts).2 = some fault ↔ Faulty decl fault) ∧
    ∀ (ts : List Token) (file : SourceFile), itemsOfTokens? ts = some file.items →
      file.module = none →
      (∀ piece ∈ itemPieces (dropInnerAttributes ts),
        (∃ decl, DeclaresStruct piece decl) ∧ (declarationFault? piece).2 = none) →
      ∀ set : SourceSet, set.files = [file] → ∀ wanted, ∃ mappings,
        (set.scan wanted).result = .ok mappings ∧ ∀ m ∈ mappings,
          ∃ piece ∈ itemPieces (dropInnerAttributes ts), ∃ decl fields,
            DeclaresStruct piece decl ∧ decl.fields = .named fields ∧ m.ident = decl.ident ∧
              ∀ text runtime, RuntimePath.parse? text = some runtime → ∃ accessors,
                Accessor.Reader.block? runtime (m.tokens runtime) = some (m.typePath, accessors) ∧
                  ∀ a ∈ accessors, a.name = "key" ∨ a.name = "set_id" →
                    ∀ field ∈ a.body.touched, ∃ f ∈ fields,
                      f.ident = field ∧ SpellsKeyType f.type := by
  refine ⟨fun ts decl hdecl hn fault => ?_, ?_⟩
  · rw [declarationFault?, hdecl]
    exact structFault?_eq_some hn fault
  intro ts file hitems hmodule haccepted set hfiles wanted
  have hdeclared : ∀ s ∈ placedStructs [] file.items, ∃ piece ∈ itemPieces (dropInnerAttributes ts),
      DeclaresStruct piece s.decl ∧ (structFault? s.decl).2 = none := by
    intro s hs
    obtain ⟨piece, hpiece, hdecl⟩ :=
      exists_declaresStruct hitems (fun piece hp => (haccepted piece hp).1) hs
    exact ⟨piece, hpiece, hdecl, accepted_of_declarationFault? hdecl (haccepted piece hpiece).2⟩
  refine ⟨_, scan_eq_ok_of_described hfiles hmodule (fun s hs => ?_) wanted, fun m hm => ?_⟩
  · obtain ⟨-, -, -, hfault⟩ := hdeclared s hs
    obtain ⟨mapping, hr, -⟩ := exists_of_accepted hfault
    exact ⟨mapping, hr⟩
  · obtain ⟨s, hs, hmapping⟩ := List.mem_filterMap.mp hm
    obtain ⟨piece, hpiece, hdecl, hfault⟩ := hdeclared s (List.mem_of_mem_filter hs)
    obtain ⟨mapping, hr, htype⟩ := exists_of_accepted hfault
    obtain ⟨m', hm', rfl⟩ := Option.map_eq_some_iff.mp hmapping
    rw [PlacedStruct.mapping?, hr] at hm'
    obtain rfl : mapping = some m' := hm'
    obtain ⟨fields, hfields⟩ := named_of_mappingOfStruct hr
    have hident := ident_of_mappingOfStruct hr
    refine ⟨piece, hpiece, s.decl, fields, hdecl, hfields, hident, ?_⟩
    intro text runtime hruntime
    refine ⟨_, Accessor.Reader.block?_tokens (RuntimePath.hasArguments_of_parse? hruntime) _, ?_⟩
    intro a ha hname field hfield
    obtain ⟨key, hkey, rfl⟩ := touched_of_mem_accessors ha hname hfield
    obtain ⟨fields', hfields', hspelled⟩ := htype m' key rfl hkey
    rw [hfields] at hfields'
    cases hfields'
    exact hspelled

/-- The type of the key, spelled by the longest of its paths. -/
def spelledType : List Token :=
  Token.op "::" ++ .kw "core" :: (Token.op "::" ++ .kw "primitive" ::
    (Token.op "::" ++ [.kw "i64"]))

/-- A struct with a key of this type. -/
def spelledDecl : StructDecl :=
  ⟨.plain "Note", false, .named
    [taggedDecl "id" "sql:\"id\" key:\"true\" table:\"notes\"" spelledType]⟩

/-- The tokens of the struct. -/
def spelledTokens : List Token :=
  [.kw "struct", .kw "Note", .opening .brace, .punct '#' false, .opening .bracket, .kw "db",
    .opening .paren, .str "sql:\"id\" key:\"true\" table:\"notes\"", .closing .paren,
    .closing .bracket, .kw "id", .punct ':' false] ++ spelledType ++ [.closing .brace]

/-- A file with only this struct, which includes the generated code. -/
def spelledFile : SourceFile := ⟨"src/lib.rs", [.struct spelledDecl], none⟩

theorem check_agrees_with_scan_spelled :
    structOfTokens? spelledTokens = some spelledDecl ∧ spelledDecl.fields.idents.Nodup ∧
    (∀ fault, (declarationFault? spelledTokens).2 = some fault ↔ Faulty spelledDecl fault) ∧
    itemsOfTokens? spelledTokens = some spelledFile.items ∧
    (∀ piece ∈ itemPieces (dropInnerAttributes spelledTokens),
      (∃ decl, DeclaresStruct piece decl) ∧ (declarationFault? piece).2 = none) ∧
    ∃ mappings, ((⟨"notes", ".", [spelledFile]⟩ : SourceSet).scan (some "Note")).result =
      .ok mappings := by
  have hdecl : structOfTokens? spelledTokens = some spelledDecl := by decide +kernel
  have hn : spelledDecl.fields.idents.Nodup := by decide +kernel
  have hitems : itemsOfTokens? spelledTokens = some spelledFile.items := by cbv
  have haccepted : ∀ piece ∈ itemPieces (dropInnerAttributes spelledTokens),
      (∃ decl, DeclaresStruct piece decl) ∧ (declarationFault? piece).2 = none := by
    have hpieces : itemPieces (dropInnerAttributes spelledTokens) = [spelledTokens] := by
      decide +kernel
    rw [hpieces, List.forall_mem_singleton]
    exact ⟨⟨spelledDecl, spelledTokens.tail, by decide +kernel, by decide +kernel⟩,
      by decide +kernel⟩
  obtain ⟨mappings, hscan, -⟩ := check_agrees_with_scan.2 spelledTokens spelledFile hitems rfl
    haccepted ⟨"notes", ".", [spelledFile]⟩ rfl (some "Note")
  exact ⟨hdecl, hn, check_agrees_with_scan.1 spelledTokens spelledDecl hdecl hn, hitems, haccepted,
    mappings, hscan⟩

end TaggedRows
