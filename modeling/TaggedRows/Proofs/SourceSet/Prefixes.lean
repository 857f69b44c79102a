import TaggedRows.Proofs.Accessor.Contract
import TaggedRows.Proofs.Source.Names
import TaggedRows.Proofs.Source.Printing
import TaggedRows.Proofs.SourceSet.Scan

/-!
# The modules that files form

A file that is a child module is named by its stem, which is read as a text of one word. So blanks
around the word and a raw mark in front of it are taken as well, though the module has no such name.

- **Texts** (`Lexer.Skips`, `Lexer.exists_of_tokens_word`): a text that is read as one word is that
  word with blanks and comments around it.
- **Bare stems** (`IsBare`, `name_of_moduleIdent?`): the module has the stem as its name if nothing
  but a name may stand in the stem.
- **Spellings** (`IsSpelling`, `exists_moduleIdent?_iff`): what is taken as the spelling of a
  module, and which stems are the name of theirs.
- **Files** (`SourceFile.modulePrefix_of_child`, `SourceSet.scan_of_modulePrefix_error`): the module
  of a child file; without one, the file fails the scan if it has mappings.
-/

namespace TaggedRows

open Source

/-! ## Texts -/

namespace Lexer

variable {cs mid rest : List Char} {id : Ident}

/-- Blanks and plain comments stand in front of the rest of the text. -/
inductive Skips : List Char → List Char → Prop where
  | refl (cs : List Char) : Skips cs cs
  | step {cs mid rest : List Char} (skipped : blank cs = .skipped mid) (more : Skips mid rest) :
      Skips cs rest

/-- A text without tokens is skipped. -/
theorem skips_of_tokens_nil {fuel : Nat} (h : tokens fuel cs = some []) : Skips cs [] := by
  induction fuel generalizing cs with
  | zero =>
    cases cs with
    | nil => exact .refl []
    | cons => cases h
  | succ fuel ih =>
    cases cs with
    | nil => exact .refl []
    | cons c cs =>
    rw [tokens] at h
    · split at h
      · next hblank => exact .step hblank (ih h)
      · split at h
        · obtain ⟨more, -, hmore⟩ := Option.map_eq_some_iff.mp h
          cases hmore
        · cases h
      · cases h
      · obtain ⟨⟨t, rest⟩, -, hmap⟩ := Option.bind_eq_some_iff.mp h
        obtain ⟨more, -, hmore⟩ := Option.map_eq_some_iff.mp hmap
        cases hmore
    · simp

/-- A word is read from its spelling. -/
theorem eq_text_append (h : anyWord? cs = some (id, rest)) : cs = id.text.toList ++ rest := by
  obtain ⟨more, rfl, hw, hraw, -⟩ | ⟨-, hw, hraw⟩ := anyWord?_cases h
  · rw [(wordRest?_eq_some.mp hw).2.1, Ident.text, if_pos hraw]
    simp
  · rw [(wordRest?_eq_some.mp hw).2.1, Ident.text, if_neg (by simp [hraw])]

/-- A text that is read as one word is that word with blanks and comments around it. -/
theorem exists_of_tokens_word {fuel : Nat} (h : tokens fuel cs = some [.word id]) :
    ∃ rest, Skips cs (id.text.toList ++ rest) ∧ Skips rest [] := by
  induction fuel generalizing cs with
  | zero =>
    cases cs with
    | nil => cases h
    | cons => cases h
  | succ fuel ih =>
    cases cs with
    | nil => cases h
    | cons c cs =>
    rw [tokens] at h
    · split at h
      · next hblank =>
        obtain ⟨rest, hskips, hrest⟩ := ih h
        exact ⟨rest, .step hblank hskips, hrest⟩
      · split at h
        · obtain ⟨more, -, hmore⟩ := Option.map_eq_some_iff.mp h
          cases hmore
        · cases h
      · cases h
      · obtain ⟨⟨t, rest⟩, ht, hmap⟩ := Option.bind_eq_some_iff.mp h
        obtain ⟨more, hmore, heq⟩ := Option.map_eq_some_iff.mp hmap
        cases heq
        refine ⟨rest, ?_, skips_of_tokens_nil hmore⟩
        rw [← eq_text_append (word?_eq_some (word?_of_token? ht))]
        exact .refl _
    · simp

theorem Skips.eq_of_blank_none (h : Skips cs rest) (hblank : blank cs = .none) : rest = cs := by
  cases h with
  | refl => rfl
  | step hskipped =>
    rw [hblank] at hskipped
    cases hskipped

/-- No blank and no comment is in the text. -/
def IsSolid (cs : List Char) : Prop := ∀ c ∈ cs, isSpace c = false ∧ c ≠ '/'

theorem IsSolid.eq_of_skips (h : IsSolid cs) (hskips : Skips cs rest) : rest = cs := by
  refine hskips.eq_of_blank_none ?_
  cases cs with
  | nil => rfl
  | cons c cs =>
    obtain ⟨hspace, hslash⟩ := h c List.mem_cons_self
    exact blank_of_not_space hslash hspace cs

theorem isSpace_of_isIdentContinue {c : Char} (h : Text.isIdentContinue c = true) :
    isSpace c = false := by
  have hblank : Text.isBlank c = false := by
    rw [Bool.eq_false_iff]
    intro hb
    have hall : ∀ n ∈ Text.blankCodes, Text.isIdentContinue (Char.ofNat n) = false := by
      decide +kernel
    have hc := hall _ (Text.mem_blankCodes hb)
    rw [Char.ofNat_toNat, h] at hc
    cases hc
  have hleft : c ≠ '\u200e' := ne_of_isIdentContinue h (by decide +kernel)
  have hright : c ≠ '\u200f' := ne_of_isIdentContinue h (by decide +kernel)
  simp [isSpace, hblank, hleft, hright]

theorem IsWord.forall_mem {w : List Char} (h : IsWord w) {p : Char → Prop}
    (hstart : ∀ c, Text.isIdentStart c = true → p c)
    (hcontinue : ∀ c, Text.isIdentContinue c = true → p c) : ∀ c ∈ w, p c := by
  obtain ⟨c, cs, rfl, hc, hcs⟩ := h
  exact List.forall_mem_cons.mpr ⟨hstart c hc, fun d hd => hcontinue d (hcs d hd)⟩

theorem IsWord.isSolid {w : List Char} (h : IsWord w) : IsSolid w :=
  h.forall_mem (fun _ hc => ⟨isSpace_of_isIdentStart hc, ne_of_isIdentStart hc (by decide)⟩)
    fun _ hc => ⟨isSpace_of_isIdentContinue hc, ne_of_isIdentContinue hc (by decide)⟩

theorem IsWord.ne_hash {w : List Char} (h : IsWord w) : ∀ c ∈ w, c ≠ '#' :=
  h.forall_mem (fun _ hc => ne_of_isIdentStart hc (by decide))
    fun _ hc => ne_of_isIdentContinue hc (by decide)

end Lexer

/-! ## Names of modules -/

open Lexer

variable {stem : String} {id : Ident}

/-- A text that is read as one name is the spelling of that name with blanks and comments around
it. -/
theorem exists_of_identOfText? {text : String} (h : identOfText? text = some id) :
    ∃ rest, Skips (dropMark text.toList) (id.text.toList ++ rest) ∧ Skips rest [] := by
  obtain ⟨hlex, -⟩ := identOfText?_eq_some.mp h
  obtain ⟨ts, hts, hguard⟩ := Option.bind_eq_some_iff.mp hlex
  obtain ⟨-, -, hpure⟩ := Option.bind_eq_some_iff.mp hguard
  cases hpure
  exact exists_of_tokens_word hts

/-- A solid text that is read as one name is the spelling of that name. -/
theorem text_of_identOfText? {text : String} (hsolid : IsSolid text.toList)
    (hmark : text.toList.head? ≠ some '\ufeff') (h : identOfText? text = some id) :
    id.text = text := by
  obtain ⟨rest, hskips, hrest⟩ := exists_of_identOfText? h
  rw [dropMark, if_neg hmark] at hskips
  have hspelled := hsolid.eq_of_skips hskips
  have hend : [] = rest := IsSolid.eq_of_skips
    (fun c hc => hsolid c (hspelled ▸ List.mem_append_right _ hc)) hrest
  rw [← hend, List.append_nil] at hspelled
  exact String.toList_inj.mp hspelled

/-- Nothing stands in the stem but what may be a name. -/
structure IsBare (stem : String) : Prop where
  isSolid : IsSolid stem.toList
  unmarked : stem.toList.head? ≠ some '\ufeff'
  notRaw : ¬ ['r', '#'] <+: stem.toList

theorem isBare_of_isWord (h : IsWord stem.toList) : IsBare stem where
  isSolid := h.isSolid
  unmarked := by
    obtain ⟨c, cs, hstem, hc, -⟩ := h
    rw [hstem]
    rintro ⟨⟩
    exact absurd hc (by decide +kernel)
  notRaw hp := h.ne_hash '#' (hp.subset (by simp)) rfl

theorem toList_raw (stem : String) : ("r#" ++ stem).toList = 'r' :: '#' :: stem.toList := by
  simp

/-- The module of a bare stem has it as its name. -/
theorem name_of_moduleIdent? (hbare : IsBare stem) (h : moduleIdent? stem = some id) :
    id.name = stem := by
  obtain hplain | ⟨-, hraw⟩ := moduleIdent?_cases h
  · have htext := text_of_identOfText? hbare.isSolid hbare.unmarked hplain
    unfold Ident.text at htext
    split at htext
    · exact absurd (by rw [← htext]; simp) hbare.notRaw
    · exact htext
  · have hsolid : IsSolid ("r#" ++ stem).toList := by
      rw [toList_raw]
      exact List.forall_mem_cons.mpr ⟨by decide +kernel,
        List.forall_mem_cons.mpr ⟨by decide +kernel, hbare.isSolid⟩⟩
    have hmark : ("r#" ++ stem).toList.head? ≠ some '\ufeff' := by
      rw [toList_raw]
      exact (by decide : some 'r' ≠ some '\ufeff')
    have htext := text_of_identOfText? hsolid hmark hraw
    unfold Ident.text at htext
    split at htext
    · exact (String.append_right_inj _).mp htext
    · obtain ⟨-, hword, -⟩ := name_of_identOfText? hraw
      exact absurd rfl (hword.ne_hash '#' (by rw [htext, toList_raw]; simp))

theorem lex?_text (id : Ident) (h : id.IsWritten) : Token.lex? id.text = some [.word id] := by
  have hprint : Token.print [.word id] = id.text := String.ofList_toList
  rw [← hprint]
  exact Token.lex?_print (Token.rereads_word h)

theorem isName_iff : id.IsName ↔ id.raw = true ∨ id.name ∉ Ident.keywords := by
  rw [Ident.IsName, Ident.isKeyword]
  cases id.raw <;> simp

/-- Behind a raw mark that has been put in front, a stem is a name with blanks and comments behind
it. -/
theorem exists_of_raw (h : identOfText? ("r#" ++ stem) = some id) :
    ∃ rest, stem.toList = id.name.toList ++ rest ∧ Skips rest [] := by
  obtain ⟨rest, hskips, hrest⟩ := exists_of_identOfText? h
  have hmark : dropMark ('r' :: '#' :: stem.toList) = 'r' :: '#' :: stem.toList :=
    if_neg (by simp)
  rw [toList_raw, hmark] at hskips
  have hspelled := hskips.eq_of_blank_none (blank_of_isIdentStart (by decide) _)
  refine ⟨rest, ?_, hrest⟩
  unfold Ident.text at hspelled
  split at hspelled
  · simpa using hspelled.symm
  · obtain ⟨-, ⟨c, cs, hname, -, hcs⟩, -⟩ := name_of_identOfText? h
    rw [hname, List.cons_append] at hspelled
    obtain ⟨-, hspelled⟩ := List.cons.inj hspelled
    cases cs with
    | nil =>
      rw [List.nil_append] at hspelled
      subst hspelled
      cases hrest.eq_of_blank_none (blank_of_not_space (by decide) (by decide +kernel) _)
    | cons d cs =>
      obtain ⟨rfl, -⟩ := List.cons.inj hspelled
      exact absurd (hcs '#' List.mem_cons_self) (by decide)

/-- The module of a stem has a name that can be written. -/
theorem isWritten_of_moduleIdent? (h : moduleIdent? stem = some id) : id.IsName ∧ id.IsWritten := by
  obtain hplain | ⟨-, hraw⟩ := moduleIdent?_cases h
  · exact name_of_identOfText? hplain
  · exact name_of_identOfText? hraw

/-- A stem is the name of its module exactly if it is a word that is no keyword, or may be written
raw. -/
theorem exists_moduleIdent?_iff : (∃ id, moduleIdent? stem = some id ∧ id.name = stem) ↔
    IsWord stem.toList ∧ stem ∉ Ident.unrawable := by
  constructor
  · rintro ⟨id, h, rfl⟩
    obtain ⟨hname, hwritten⟩ := isWritten_of_moduleIdent? h
    refine ⟨hwritten.word, fun hmem => ?_⟩
    have hkeyword : id.name ∈ Ident.keywords :=
      (by decide : ∀ s ∈ Ident.unrawable, s ∈ Ident.keywords) _ hmem
    obtain hraw | hplain := isName_iff.mp hname
    · exact hwritten.raw hraw hmem
    · exact hplain hkeyword
  · rintro ⟨hword, hraw⟩
    have hplain : Token.lex? stem = some [.word (.plain stem)] :=
      lex?_text (.plain stem) ⟨hword, fun h => by cases h⟩
    by_cases hkeyword : stem ∈ Ident.keywords
    · have hnone : identOfText? stem = none := by
        refine Option.eq_none_iff_forall_ne_some.mpr fun id hid => ?_
        obtain ⟨hlex, hname⟩ := identOfText?_eq_some.mp hid
        rw [hplain] at hlex
        cases hlex
        obtain h | h := isName_iff.mp hname
        · cases h
        · exact h hkeyword
      have hsome : identOfText? ("r#" ++ stem) = some ⟨true, stem⟩ :=
        identOfText?_eq_some.mpr
          ⟨lex?_text ⟨true, stem⟩ ⟨hword, fun _ => hraw⟩, isName_iff.mpr (.inl rfl)⟩
      exact ⟨_, by rw [moduleIdent?, hnone, Option.orElse_none, hsome], rfl⟩
    · have hsome : identOfText? stem = some (.plain stem) :=
        identOfText?_eq_some.mpr ⟨hplain, isName_iff.mpr (.inr hkeyword)⟩
      exact ⟨_, by rw [moduleIdent?, hsome, Option.orElse_some], rfl⟩

/-- The stem spells the name: it is the word of the name with blanks and comments around it, or the
name alone with blanks and comments behind it. -/
def IsSpelling (id : Ident) (stem : String) : Prop :=
  (∃ rest, Skips (dropMark stem.toList) (id.text.toList ++ rest) ∧ Skips rest []) ∨
    ∃ rest, stem.toList = id.name.toList ++ rest ∧ Skips rest []

theorem isSpelling_of_moduleIdent? (h : moduleIdent? stem = some id) : IsSpelling id stem := by
  obtain hplain | ⟨-, hraw⟩ := moduleIdent?_cases h
  · exact .inl (exists_of_identOfText? hplain)
  · exact .inr (exists_of_raw hraw)

/-! ## Files -/

/-- The file forms the child module that its stem names. -/
def SourceFile.IsChild (file : SourceFile) (stem : String) : Prop :=
  file.module = some stem ∧ FilePath.stem? file.path = some stem

/-- The structs of a file that a scan looks at. -/
def SourceFile.structs (wanted : Option String) (file : SourceFile) : List PlacedStruct :=
  (placedStructs [] file.items).filter (·.named wanted)

/-- The first failure in the files, or else the mappings in all of them. -/
theorem SourceSet.result_scan (set : SourceSet) (wanted : Option String) :
    (set.scan wanted).result =
      firstOr (set.files.flatMap fun f => f.failures (f.structs wanted))
        (set.files.flatMap fun f => f.mappings (f.structs wanted)) :=
  result_scan_go wanted set.files

/-- A file that forms no module fails the scan if one of its structs has a mapping, unless something
fails before that: a struct or a module of an earlier file, or a struct of this one. -/
theorem SourceSet.scan_of_modulePrefix_error {set : SourceSet} {before after : List SourceFile}
    {file : SourceFile} {wanted : Option String} {e : Failure}
    (hfiles : set.files = before ++ file :: after) (he : file.modulePrefix = .error e)
    (hfound : ∃ s ∈ file.structs wanted, s.mapping?.isSome) :
    (set.scan wanted).result = .error
      (((before.flatMap fun f => f.failures (f.structs wanted)) ++
        (file.structs wanted).filterMap PlacedStruct.failure?).head?.getD e) := by
  obtain ⟨s, hs, hsome⟩ := hfound
  obtain ⟨m, hm⟩ := Option.isSome_iff_exists.mp hsome
  have hmem : m ∈ (file.structs wanted).filterMap PlacedStruct.mapping? :=
    List.mem_filterMap.mpr ⟨s, hs, hm⟩
  have hfailures : file.failures (file.structs wanted) =
      (file.structs wanted).filterMap PlacedStruct.failure? ++ [e] := by
    rw [SourceFile.failures, he]
    cases hall : (file.structs wanted).filterMap PlacedStruct.mapping? with
    | nil =>
      rw [hall] at hmem
      cases hmem
    | cons => rfl
  rw [result_scan, hfiles, List.flatMap_append, List.flatMap_cons, hfailures, List.append_assoc,
    ← List.append_assoc]
  cases (before.flatMap fun f => f.failures (f.structs wanted)) ++
      (file.structs wanted).filterMap PlacedStruct.failure? <;> rfl

namespace SourceFile

variable {file : SourceFile}

/-- A file that is read and forms a child module has the stem of its path. -/
theorem isChild_of_ofText {several : Bool} {path text : String}
    (hread : ofText several path text = .ok file) (h : file.module = some stem) :
    file.path = path ∧ file.IsChild stem := by
  unfold ofText at hread
  split at hread
  · cases hread
  · cases hread
    refine ⟨rfl, h, ?_⟩
    simp only at h
    split at h
    · exact (Option.filter_eq_some_iff.mp h).1
    · cases h

/-- What makes up the module of a child file. -/
theorem modulePrefix_cases (h : file.IsChild stem) :
    (∃ id, moduleIdent? stem = some id ∧ file.modulePrefix = .ok [id]) ∨
      moduleIdent? stem = none ∧ file.modulePrefix = .error (.invalidModuleName file.path) := by
  rw [modulePrefix, h.1]
  cases hid : moduleIdent? stem with
  | some id => exact .inl ⟨id, rfl, by simp only [hid]⟩
  | none => exact .inr ⟨rfl, by simp only [hid]⟩

theorem modulePrefix_eq_ok (h : file.IsChild stem) :
    file.modulePrefix = .ok [id] ↔ moduleIdent? stem = some id := by
  obtain ⟨id', hid, hmodules⟩ | ⟨hid, hmodules⟩ := modulePrefix_cases h
  · simp [hid, hmodules]
  · simp [hid, hmodules]

/-- The module of a child file is one identifier that the stem spells. Its name is the stem exactly
if the stem has no blanks, comments or raw mark; there is one with this name exactly for the stems
that are words, keywords that may not be written raw apart. A stem that spells no name is the
failure of every scan in which the file has a mapping, unless something fails before that. So bare
stems that are different never give the same module. -/
theorem modulePrefix_of_child (h : file.IsChild stem) :
    (∀ ids, file.modulePrefix = .ok ids →
      ∃ id, ids = [id] ∧ IsSpelling id stem ∧ (id.name = stem ↔ IsBare stem)) ∧
    ((∃ id, file.modulePrefix = .ok [id] ∧ id.name = stem) ↔
      IsWord stem.toList ∧ stem ∉ Ident.unrawable) ∧
    (∀ e, file.modulePrefix = .error e → e = .invalidModuleName file.path ∧
      ∀ (set : SourceSet) (before after : List SourceFile) (wanted : Option String),
        set.files = before ++ file :: after →
        (∃ s ∈ file.structs wanted, s.mapping?.isSome) →
        (set.scan wanted).result = .error
          (((before.flatMap fun f => f.failures (f.structs wanted)) ++
            (file.structs wanted).filterMap PlacedStruct.failure?).head?.getD e)) ∧
    ∀ other otherStem, SourceFile.IsChild other otherStem → IsBare stem → IsBare otherStem →
      file.modulePrefix.toOption.isSome → other.modulePrefix = file.modulePrefix →
      otherStem = stem := by
  refine ⟨fun ids hids => ?_, ?_, fun e he => ⟨?_, ?_⟩, ?_⟩
  · obtain ⟨id, hid, hmodules⟩ | ⟨-, hmodules⟩ := modulePrefix_cases h
    · rw [hmodules] at hids
      cases hids
      refine ⟨id, rfl, isSpelling_of_moduleIdent? hid, ?_,
        fun hbare => name_of_moduleIdent? hbare hid⟩
      rintro rfl
      exact isBare_of_isWord (isWritten_of_moduleIdent? hid).2.word
    · rw [hmodules] at hids
      cases hids
  · simp only [modulePrefix_eq_ok h]
    exact exists_moduleIdent?_iff
  · obtain ⟨id, -, hmodules⟩ | ⟨-, hmodules⟩ := modulePrefix_cases h
    · rw [hmodules] at he
      cases he
    · rw [hmodules] at he
      exact (Except.error.inj he).symm
  · intro set before after wanted hfiles hfound
    exact SourceSet.scan_of_modulePrefix_error hfiles he hfound
  · intro other otherStem hother hbare hbare' hsome heq
    obtain ⟨id, hid, hmodules⟩ | ⟨-, hmodules⟩ := modulePrefix_cases h
    · rw [hmodules, modulePrefix_eq_ok hother] at heq
      rw [← name_of_moduleIdent? hbare hid, ← name_of_moduleIdent? hbare' heq]
    · rw [hmodules] at hsome
      cases hsome

/-- A file with one mapped struct that forms the child module of the given name. -/
def noteFile (path stem : String) : SourceFile := ⟨path, [.struct noteDecl], some stem⟩

theorem structs_noteFile (path stem : String) :
    (noteFile path stem).structs none = [⟨[], noteDecl⟩] := by
  simp [structs, noteFile, placedStructs, PlacedStruct.named]

/-- Named by a keyword, the module is written raw; a stem with a dash in it names none. -/
theorem modulePrefix_of_child_keyword :
    (noteFile "type.rs" "type").IsChild "type" ∧
    (∃ id, (noteFile "type.rs" "type").modulePrefix = .ok [id] ∧ id.name = "type") ∧
    (noteFile "my-models.rs" "my-models").IsChild "my-models" ∧
    (SourceSet.scan ⟨"m", ".", [noteFile "type.rs" "type", noteFile "my-models.rs" "my-models"]⟩
      none).result = .error (.invalidModuleName "my-models.rs") := by
  have hkeyword : (noteFile "type.rs" "type").IsChild "type" := ⟨rfl, by decide +kernel⟩
  have hdash : (noteFile "my-models.rs" "my-models").IsChild "my-models" :=
    ⟨rfl, by decide +kernel⟩
  have hletters : ['y', 'p', 'e'].all Text.isIdentContinue = true := by decide
  have hword : IsWord "type".toList :=
    ⟨'t', ['y', 'p', 'e'], by decide +kernel, by decide, List.all_eq_true.mp hletters⟩
  have hfailed : (noteFile "my-models.rs" "my-models").modulePrefix =
      .error (.invalidModuleName "my-models.rs") := by decide +kernel
  have hmapped : ∃ s ∈ (noteFile "my-models.rs" "my-models").structs none, s.mapping?.isSome := by
    rw [structs_noteFile]
    exact ⟨_, List.mem_singleton_self _, by decide +kernel⟩
  have hscan := ((modulePrefix_of_child hdash).2.2.1 _ hfailed).2
    ⟨"m", ".", [noteFile "type.rs" "type", noteFile "my-models.rs" "my-models"]⟩
    [noteFile "type.rs" "type"] [] none rfl hmapped
  rw [List.flatMap_singleton, structs_noteFile, structs_noteFile] at hscan
  exact ⟨hkeyword, (modulePrefix_of_child hkeyword).2.1.mpr ⟨hword, by decide⟩, hdash,
    hscan.trans (by decide +kernel)⟩

/-- A file whose stem begins with a blank is in the module of the file without it, though its stem
is no identifier. -/
theorem modulePrefix_of_blank :
    (noteFile " foo.rs" " foo").IsChild " foo" ∧ (noteFile "foo.rs" "foo").IsChild "foo" ∧
    (noteFile " foo.rs" " foo").modulePrefix = .ok [.plain "foo"] ∧
    (noteFile "foo.rs" "foo").modulePrefix = .ok [.plain "foo"] ∧
    (Ident.plain "foo").name ≠ " foo" ∧
    (SourceSet.scan ⟨"m", ".", [noteFile " foo.rs" " foo", noteFile "foo.rs" "foo"]⟩
      none).result.toOption.map (·.map (·.modulePath)) =
      some [[.plain "foo"], [.plain "foo"]] := by
  refine ⟨⟨rfl, by decide +kernel⟩, ⟨rfl, by decide +kernel⟩, by decide +kernel,
    by decide +kernel, by decide, ?_⟩
  rw [SourceSet.result_scan]
  simp only [List.flatMap_cons, List.flatMap_nil, structs_noteFile]
  decide +kernel

end SourceFile

end TaggedRows
