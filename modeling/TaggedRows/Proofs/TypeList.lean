import TaggedRows.TypeList
import TaggedRows.Proofs.Text.Blank
import TaggedRows.Proofs.Text.Split

/-!
# Normal forms of type lists

- **First occurrences** (`eraseDups_cons_eq`, `pairwise_eraseDups`): what is kept of a list when
  every element stays where it occurs first.
- **Names** (`ofNames_eq`): the names in a list are trimmed, and each stands at its first
  occurrence.
- **Segments** (`AreSegments`, `AreNames`): the parts of a text between its commas, and the names in
  them, in order.
- **Writings** (`Writes`): the names again, with more white space, blank entries and repetitions. A
  list has its normal form in every writing of it (`ofNames_of_writes`, `parse_normalForm`).
-/

namespace TaggedRows.TypeList

/-! ## First occurrences -/

section

variable {α β : Type} [BEq α] [LawfulBEq α] [BEq β] [LawfulBEq β]

theorem eraseDups_filter (p : α → Bool) : ∀ l : List α,
    (l.filter p).eraseDups = l.eraseDups.filter p
  | [] => rfl
  | a :: l => by
    have hlt : (l.filter fun b => !b == a).length < l.length + 1 :=
      Nat.lt_succ_of_le (List.length_filter_le ..)
    rw [List.eraseDups_cons, List.filter_cons, List.filter_cons, ← eraseDups_filter p,
      List.filter_filter]
    split
    · rw [List.eraseDups_cons, List.filter_filter]
      simp only [Bool.and_comm]
    · next ha =>
      congr 1
      refine List.filter_congr fun b _ => ?_
      by_cases hb : b = a <;> simp [hb, ha]
termination_by l => l.length

/-- The first element stays, and is taken out of what is kept of the others. -/
theorem eraseDups_cons_eq (a : α) (l : List α) :
    (a :: l).eraseDups = a :: l.eraseDups.filter fun b => !b == a := by
  rw [List.eraseDups_cons, eraseDups_filter]

theorem eraseDups_map {f : α → β} (hf : Function.Injective f) (l : List α) :
    (l.map f).eraseDups = l.eraseDups.map f := by
  induction l with
  | nil => rfl
  | cons a l ih =>
    rw [List.map_cons, eraseDups_cons_eq, eraseDups_cons_eq, List.map_cons, ih, List.filter_map]
    congr 2
    refine List.filter_congr fun b _ => ?_
    by_cases hb : b = a
    · simp [hb]
    · simp [beq_false_of_ne hb, beq_false_of_ne (hf.ne hb)]

theorem nodup_eraseDups (l : List α) : l.eraseDups.Nodup := by
  induction l with
  | nil => exact .nil
  | cons a l ih =>
    rw [eraseDups_cons_eq, List.nodup_cons]
    exact ⟨by simp, ih.filter _⟩

/-- The elements stand in the order in which they occur first. -/
theorem pairwise_eraseDups (l : List α) : l.eraseDups.Pairwise fun a b =>
    ∃ before after, l = before ++ a :: after ∧ b ∉ before := by
  induction l with
  | nil => exact .nil
  | cons a l ih =>
    rw [eraseDups_cons_eq, List.pairwise_cons, List.pairwise_filter]
    refine ⟨fun b _ => ⟨[], l, rfl, List.not_mem_nil⟩, ih.imp ?_⟩
    rintro b c ⟨before, after, rfl, hnot⟩ - hc
    have hne : c ≠ a := by simpa using hc
    exact ⟨a :: before, after, rfl, by simp [hne, hnot]⟩

end

/-! ## Names -/

theorem firstOccurrences_eq (names : List (List Char)) :
    firstOccurrences names = names.eraseDups := by
  induction names with
  | nil => rfl
  | cons name names ih =>
    rw [firstOccurrences, eraseDups_cons_eq, ih]
    congr 2
    funext other
    by_cases h : other = name <;> simp [h]

/-- A name without the white space around it. -/
def trimmed (name : String) : String := String.ofList (Text.trim name.toList)

/-- The names without the white space around them, each where it occurs first. -/
theorem ofNames_eq (names : List String) :
    ofNames names = ((names.map trimmed).filter (· ≠ "")).eraseDups := by
  have hinj : Function.Injective String.ofList := fun a b h => by
    simpa using congrArg String.toList h
  have hkeep : (fun cs : List Char => !cs.isEmpty) ∘ Text.trim ∘ String.toList =
      (fun name => decide (name ≠ "")) ∘ trimmed := by
    funext name
    cases h : Text.trim name.toList <;> simp [trimmed, h]
  rw [ofNames, normalize, firstOccurrences_eq, ← eraseDups_map hinj, List.map_map, List.filter_map,
    List.map_map, List.filter_map, hkeep]
  rfl

theorem nodup_ofNames (names : List String) : (ofNames names).Nodup := by
  rw [ofNames_eq]
  exact nodup_eraseDups _

/-- The names in a text are those of its pieces between the commas. -/
theorem parse_eq (list : String) : parse list = ofNames (Text.piecesOf ',' list) := by
  rw [parse, ofNames, Text.piecesOf, List.map_map]
  simp [Function.comp_def]

/-! ## Segments -/

/-- The segments are the parts of the text between its commas. -/
structure AreSegments (text : String) (segments : List String) : Prop where
  ne_nil : segments ≠ []
  noComma : ∀ s ∈ segments, ',' ∉ s.toList
  join : ",".intercalate segments = text

theorem areSegments_iff {text : String} {segments : List String} :
    AreSegments text segments ↔ segments = Text.piecesOf ',' text := by
  constructor
  · rintro ⟨hne, hcomma, rfl⟩
    exact (Text.piecesOf_intercalate ',' segments hne hcomma).symm
  · rintro rfl
    refine ⟨?_, ?_, ?_⟩
    · simpa [Text.piecesOf] using Text.pieces_ne_nil ',' text.toList
    · intro s hs
      obtain ⟨piece, hp, rfl⟩ := List.mem_map.mp hs
      rw [String.toList_ofList]
      exact Text.notMem_of_mem_pieces hp
    · refine String.toList_injective ?_
      rw [String.toList_intercalate, Text.piecesOf, List.map_map, Text.pieces_eq_splitOn]
      simp [Function.comp_def]

/-- The name stands in the segment, with nothing but white space around it. -/
def Holds (segment name : String) : Prop := Text.Pads segment.toList name.toList

theorem holds_iff {segment name : String} : Holds segment name ↔ trimmed segment = name := by
  rw [Holds, ← Text.trim_eq_iff, trimmed]
  constructor
  · intro h
    rw [h, String.ofList_toList]
  · rintro rfl
    rw [String.toList_ofList]

/-- The names are those in the segments, none of which is left out unless it is blank: no empty
name, each once, and in the order of their first occurrences. -/
structure AreNames (segments names : List String) : Prop where
  mem_iff : ∀ name, name ∈ names ↔ name ≠ "" ∧ ∃ s ∈ segments, Holds s name
  covers : ∀ s ∈ segments, (∃ c ∈ s.toList, Text.isBlank c = false) → ∃ name ∈ names, Holds s name
  nodup : names.Nodup
  inOrder : names.Pairwise fun a b => ∃ before s after,
    segments = before ++ s :: after ∧ Holds s a ∧ ∀ s' ∈ before, ¬ Holds s' b

/-- Only a blank segment has no name in it. -/
theorem isBlank_of_trimmed {segment : String} (h : trimmed segment = "") :
    ∀ c ∈ segment.toList, Text.isBlank c = true := by
  obtain ⟨-, before, after, hsegment, hbefore, hafter⟩ := holds_iff.mpr h
  intro c hc
  rw [hsegment] at hc
  rcases List.mem_append.mp hc with hc | hc
  · exact hbefore c hc
  · exact hafter c (by simpa using hc)

theorem areNames_ofNames (segments : List String) : AreNames segments (ofNames segments) := by
  have hmem : ∀ name, name ∈ ofNames segments ↔ name ≠ "" ∧ ∃ s ∈ segments, Holds s name := by
    intro name
    rw [ofNames_eq]
    simp only [List.mem_eraseDups, List.mem_filter, List.mem_map, holds_iff, decide_eq_true_eq,
      ne_eq, and_comm]
  refine ⟨hmem, ?_, nodup_ofNames segments, ?_⟩
  · rintro s hs ⟨c, hc, hblank⟩
    have hholds : Holds s (trimmed s) := holds_iff.mpr rfl
    refine ⟨_, (hmem _).mpr ⟨fun hnil => ?_, s, hs, hholds⟩, hholds⟩
    simp [isBlank_of_trimmed hnil c hc] at hblank
  · rw [ofNames_eq, eraseDups_filter]
    refine ((pairwise_eraseDups _).sublist List.filter_sublist).imp ?_
    rintro a b ⟨before, after, hsplit, hb⟩
    obtain ⟨before', rest, rfl, rfl, hrest⟩ := List.map_eq_append_iff.mp hsplit
    obtain ⟨s, after', rfl, rfl, rfl⟩ := List.map_eq_cons_iff.mp hrest
    refine ⟨before', s, after', rfl, holds_iff.mpr rfl, fun s' hs' h => hb ?_⟩
    exact List.mem_map.mpr ⟨s', hs', holds_iff.mp h⟩

/-- There is one list of the names in segments. -/
theorem AreNames.unique {segments names names' : List String} (h : AreNames segments names)
    (h' : AreNames segments names') : names = names' := by
  have hperm : names.Perm names' := by
    rw [List.perm_ext_iff_of_nodup h.nodup h'.nodup]
    intro name
    rw [h.mem_iff, h'.mem_iff]
  refine hperm.eq_of_pairwise ?_ h.inOrder h'.inOrder
  rintro a b - - ⟨before, s, after, rfl, ha, hb⟩ ⟨before', s', after', hsplit, hb', ha'⟩
  -- The first of the two places holds both names.
  rcases List.append_eq_append_iff.mp hsplit with ⟨mid, rfl, hmid⟩ | ⟨mid, rfl, hmid⟩
  · cases mid with
    | nil =>
      obtain ⟨rfl, -⟩ := List.cons.inj hmid
      exact (holds_iff.mp ha).symm.trans (holds_iff.mp hb')
    | cons m mid =>
      obtain ⟨rfl, -⟩ := List.cons.inj hmid
      exact absurd ha (ha' s (by simp))
  · cases mid with
    | nil =>
      obtain ⟨rfl, -⟩ := List.cons.inj hmid
      exact (holds_iff.mp ha).symm.trans (holds_iff.mp hb')
    | cons m mid =>
      obtain ⟨rfl, -⟩ := List.cons.inj hmid
      exact absurd hb' (hb s' (by simp))

/-! ## Writings -/

/-- The entries write the names in order, with any white space around them. Blank entries may stand
anywhere, and repetitions behind the entry of their name, which may be one `seen` before. -/
inductive Writes : (seen names entries : List String) → Prop where
  | nil {seen : List String} : Writes seen [] []
  | name {seen names entries : List String} {name entry : String} (h : Holds entry name)
    (rest : Writes (name :: seen) names entries) : Writes seen (name :: names) (entry :: entries)
  | blank {seen names entries : List String} {entry : String}
    (h : ∀ c ∈ entry.toList, Text.isBlank c = true) (rest : Writes seen names entries) :
    Writes seen names (entry :: entries)
  | again {seen names entries : List String} {name entry : String} (hseen : name ∈ seen)
    (h : Holds entry name) (rest : Writes seen names entries) : Writes seen names (entry :: entries)

theorem trimmed_of_blank {entry : String} (h : ∀ c ∈ entry.toList, Text.isBlank c = true) :
    trimmed entry = "" := by
  have htrimmed : Text.IsTrimmed [] := ⟨by simp, by simp⟩
  exact holds_iff.mp ⟨htrimmed, entry.toList, [], by simp, h, by simp⟩

theorem ofNames_cons (entry : String) (entries : List String) : ofNames (entry :: entries) =
    if trimmed entry = "" then ofNames entries
    else trimmed entry :: (ofNames entries).filter (· ≠ trimmed entry) := by
  have hother : (fun b => !b == trimmed entry) = fun b => decide (b ≠ trimmed entry) := by
    funext b
    by_cases hb : b = trimmed entry <;> simp [hb]
  rw [ofNames_eq, ofNames_eq, List.map_cons]
  split
  · next h => rw [List.filter_cons_of_neg (by simpa using h)]
  · next h => rw [List.filter_cons_of_pos (by simpa using h), eraseDups_cons_eq, hother]

/-- Of what a writing gives, the names that were not seen before are the ones that it writes. -/
theorem filter_ofNames_of_writes {seen names entries : List String} (h : Writes seen names entries)
    (hne : ∀ name ∈ names, name ≠ "") (hnodup : names.Nodup)
    (hseen : ∀ name ∈ names, name ∉ seen) : (ofNames entries).filter (· ∉ seen) = names := by
  induction h with
  | nil => rfl
  | @name seen names entries name entry h _ ih =>
    obtain ⟨hname, hnames⟩ := List.forall_mem_cons.mp hne
    obtain ⟨hnotin, hnodup⟩ := List.nodup_cons.mp hnodup
    obtain ⟨hnew, hseen⟩ := List.forall_mem_cons.mp hseen
    have hrest : (ofNames entries).filter (· ∉ name :: seen) = names := by
      refine ih hnames hnodup fun other hother => ?_
      have hne : other ≠ name := fun he => hnotin (he ▸ hother)
      simp [hne, hseen other hother]
    rw [ofNames_cons, holds_iff.mp h, if_neg hname, List.filter_cons_of_pos (by simpa using hnew),
      List.filter_filter]
    congr 1
    rw [← hrest]
    refine List.filter_congr fun b _ => ?_
    by_cases hb : b = name <;> simp [hb]
  | blank h _ ih =>
    rw [ofNames_cons, trimmed_of_blank h, if_pos rfl]
    exact ih hne hnodup hseen
  | @again seen names entries name entry hmem h _ ih =>
    rw [ofNames_cons, holds_iff.mp h]
    split
    · exact ih hne hnodup hseen
    · rw [List.filter_cons_of_neg (by simpa using hmem), List.filter_filter]
      rw [← ih hne hnodup hseen]
      refine List.filter_congr fun b _ => ?_
      by_cases hb : b = name <;> simp [hb, hmem]

/-- Every writing of names in normal form has that normal form. -/
theorem ofNames_of_writes {names entries : List String} (h : Writes [] names entries)
    (hne : ∀ name ∈ names, name ≠ "") (hnodup : names.Nodup) : ofNames entries = names := by
  have hfilter := filter_ofNames_of_writes h hne hnodup fun _ _ => List.not_mem_nil
  rwa [List.filter_eq_self.mpr (by simp)] at hfilter

theorem noComma_of_holds {segment name : String} (h : Holds segment name)
    (hname : ',' ∉ name.toList) : ',' ∉ segment.toList := by
  obtain ⟨-, before, after, hsegment, hbefore, hafter⟩ := h
  have hblank : Text.isBlank ',' = false := by decide
  rw [hsegment, List.mem_append, List.mem_append]
  rintro (hc | hc | hc)
  · simp [hbefore _ hc] at hblank
  · exact hname hc
  · simp [hafter _ hc] at hblank

theorem noComma_of_writes {seen names entries : List String} (h : Writes seen names entries)
    (hnames : ∀ name ∈ names, ',' ∉ name.toList) (hseen : ∀ name ∈ seen, ',' ∉ name.toList) :
    ∀ entry ∈ entries, ',' ∉ entry.toList := by
  induction h with
  | nil => simp
  | name h _ ih =>
    obtain ⟨hname, hnames⟩ := List.forall_mem_cons.mp hnames
    exact List.forall_mem_cons.mpr
      ⟨noComma_of_holds h hname, ih hnames (List.forall_mem_cons.mpr ⟨hname, hseen⟩)⟩
  | blank h _ ih =>
    refine List.forall_mem_cons.mpr ⟨fun hc => ?_, ih hnames hseen⟩
    exact absurd (h _ hc) (by decide)
  | again hmem h _ ih =>
    exact List.forall_mem_cons.mpr ⟨noComma_of_holds h (hseen _ hmem), ih hnames hseen⟩

/-- Joined with commas, a writing is read as the names that it writes. -/
theorem parse_of_writes {names entries : List String} (h : Writes [] names entries)
    (hne : ∀ name ∈ names, name ≠ "") (hcomma : ∀ name ∈ names, ',' ∉ name.toList)
    (hnodup : names.Nodup) : parse (",".intercalate entries) = names := by
  by_cases hentries : entries = []
  · subst hentries
    cases h
    rfl
  · have hpieces := Text.piecesOf_intercalate ',' entries hentries
      (noComma_of_writes h hcomma (by simp))
    rw [parse_eq, show "," = String.singleton ',' from rfl, hpieces,
      ofNames_of_writes h hne hnodup]

/-- The parts of a list between its commas are its segments, and the list is read as the names in
them: trimmed, none empty and none with a comma, each once and in the order of the first
occurrences, and none left out. Every writing of these names is read as the same list. -/
theorem parse_normalForm (list : String) : ∃ segments, AreSegments list segments ∧
    (∀ segments', AreSegments list segments' → segments' = segments) ∧
    AreNames segments (parse list) ∧
    (∀ names, AreNames segments names → names = parse list) ∧
    (∀ name ∈ parse list, name ≠ "" ∧ ',' ∉ name.toList ∧ Text.IsTrimmed name.toList) ∧
    ∀ entries, Writes [] (parse list) entries → parse (",".intercalate entries) = parse list := by
  have hsegments := areSegments_iff.mpr (rfl : Text.piecesOf ',' list = _)
  have hnames : AreNames (Text.piecesOf ',' list) (parse list) :=
    parse_eq list ▸ areNames_ofNames _
  have hgood : ∀ name ∈ parse list,
      name ≠ "" ∧ ',' ∉ name.toList ∧ Text.IsTrimmed name.toList := by
    intro name hname
    obtain ⟨hne, s, hs, hholds⟩ := (hnames.mem_iff name).mp hname
    obtain ⟨htrimmed, before, after, hsegment, -⟩ := id hholds
    refine ⟨hne, fun hc => hsegments.noComma s hs ?_, htrimmed⟩
    rw [hsegment]
    simp [hc]
  refine ⟨_, hsegments, fun segments' h => areSegments_iff.mp h, hnames,
    fun names h => h.unique hnames, hgood, fun entries h => ?_⟩
  exact parse_of_writes h (fun name hname => (hgood name hname).1)
    (fun name hname => (hgood name hname).2.1) hnames.nodup

/-- White space of several kinds, a blank entry and a repetition. -/
theorem parse_normalForm_padded :
    parse " User, ,Role,User " = ["User", "Role"] ∧
    Writes [] ["User", "Role"] ["\tUser", "", "User\u00a0", "Role "] ∧
    parse (",".intercalate ["\tUser", "", "User\u00a0", "Role "]) = parse " User, ,Role,User " := by
  have hparse : parse " User, ,Role,User " = ["User", "Role"] := by decide +kernel
  have hwrites : Writes [] ["User", "Role"] ["\tUser", "", "User\u00a0", "Role "] :=
    .name (holds_iff.mpr (by decide +kernel)) (.blank (by simp) (.again List.mem_cons_self
      (holds_iff.mpr (by decide +kernel)) (.name (holds_iff.mpr (by decide +kernel)) .nil)))
  obtain ⟨segments, -, -, -, -, -, hstable⟩ := parse_normalForm " User, ,Role,User "
  exact ⟨hparse, hwrites, hstable _ (hparse ▸ hwrites)⟩

end TaggedRows.TypeList
