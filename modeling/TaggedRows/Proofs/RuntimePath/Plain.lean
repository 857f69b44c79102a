import TaggedRows.Proofs.Source.Paths

/-!
# Plain runtime paths

A path of names without generic arguments, from the root or not. Its tokens are a path in a type, in
a bound and in an import.

- **Plain paths** (`RuntimePath.IsPlain`): their names, and the paths of what is in the runtime.
- **Plain texts** (`RuntimePath.IsPlainText`, `RuntimePath.IsPlainText.parses`): they are read.
-/

namespace TaggedRows

open Source

namespace RuntimePath

variable {runtime : RuntimePath}

/-- The names of the path. -/
def names (path : RuntimePath) : List Ident :=
  path.first.ident :: path.rest.map PathSegment.ident

/-- No name has generic arguments, and each is a name or leads to a module. -/
structure IsPlain (path : RuntimePath) : Prop where
  arguments : ∀ s ∈ path.first :: path.rest, s.arguments = []
  names : ∀ id ∈ path.names, id.IsPathWord

theorem IsPlain.tokens_eq (h : runtime.IsPlain) :
    runtime.tokens = placedPath runtime.isAbsolute runtime.names := by
  have hrest : ∀ ss : List PathSegment, (∀ s ∈ ss, s.arguments = []) →
      (ss.flatMap fun s => Token.op "::" ++ segmentTokens s) =
        furtherNames (ss.map PathSegment.ident) := by
    intro ss hss
    rw [furtherNames, List.flatMap_map, List.flatMap_def, List.flatMap_def]
    exact congrArg List.flatten
      (List.map_congr_left fun s hs => by rw [segmentTokens, hss s hs])
  obtain ⟨hfirst, hothers⟩ := List.forall_mem_cons.mp h.arguments
  rw [tokens, segmentTokens, hfirst, hrest _ hothers, placedPath, RuntimePath.names, path_cons,
    List.append_assoc]
  rfl

/-- The path of something in the runtime, as a path. -/
theorem IsPlain.tokensOf_eq (h : runtime.IsPlain) (names : List String) :
    runtime.tokensOf names =
      placedPath runtime.isAbsolute (runtime.names ++ names.map Ident.plain) := by
  have hcons : runtime.names = runtime.first.ident :: runtime.rest.map PathSegment.ident := rfl
  rw [tokensOf, h.tokens_eq, placedPath, placedPath, List.append_assoc, hcons, List.cons_append,
    path_cons, path_cons, List.cons_append]
  simp [furtherNames, List.flatMap_append, List.flatMap_map, Token.kw]

theorem IsPlain.fitsType (h : runtime.IsPlain) (names : List String)
    (hnames : ∀ s ∈ names, s ∉ Ident.keywords) :
    FitsType runtime.isAbsolute (runtime.names ++ names.map Ident.plain) where
  ne_nil := by simp [RuntimePath.names]
  segments id hid := by
    rcases List.mem_append.mp hid with hid | hid
    · exact .inl (h.names id hid)
    · obtain ⟨s, hs, rfl⟩ := List.mem_map.mp hid
      exact .inl (.inl (Ident.isName_plain (hnames s hs)))
  head := .inr ⟨runtime.first.ident, rfl, h.names _ (by simp [RuntimePath.names])⟩

/-! ## Reading -/

/-- The text is a path of names or of words that lead to modules, and of nothing else. -/
def IsPlainText (text : String) : Prop :=
  ∃ isAbsolute ids, ids ≠ [] ∧ (∀ id ∈ ids, id.IsPathWord) ∧
    Token.lex? text = some (placedPath isAbsolute ids)

theorem segments?_path {ids : List Ident} (hids : ids ≠ []) {fuel : Nat}
    (hfuel : ids.length ≤ fuel) :
    segments? fuel (Token.path ids) = some (ids.map fun id => ⟨id, []⟩) := by
  -- Neither the end of a path nor a further name begins generic arguments.
  have hnone : ∀ {ts}, follow (.seq (Form.optIf pathSep pathSep)
      (.seq (Form.look (Form.op "<")) genericArgs)) ts = .refused →
      takeForm? (.seq (Form.optIf pathSep pathSep)
        (.seq (Form.look (Form.op "<")) genericArgs)) ts = none := by
    intro ts hrefused
    cases htake : takeForm? _ ts with
    | none => rfl
    | some rest =>
      rw [follow_of_takeForm? htake] at hrefused
      cases hrefused
  induction fuel generalizing ids with
  | zero => exact absurd (List.eq_nil_of_length_eq_zero (Nat.le_zero.mp hfuel)) hids
  | succ fuel ih =>
    obtain ⟨id, ids, rfl⟩ := List.exists_cons_of_ne_nil hids
    cases ids with
    | nil =>
      rw [Token.path, segments?, hnone (follow_of_run (n := 20) rfl (by simp))]
      simp [segments?.more]
    | cons next ids =>
      have hpath : Token.path (id :: next :: ids) =
          .word id :: .punct ':' true :: .punct ':' false :: Token.path (next :: ids) := rfl
      have hrest := @ih (next :: ids) (by simp) (Nat.le_of_succ_le_succ hfuel)
      have hmore : Token.path (next :: ids) = .word next :: furtherNames ids := path_cons next ids
      rw [hpath, segments?, hnone]
      · simp [segments?.more, hrest]
      · rw [hmore]
        exact follow_of_run (n := 20) rfl (by simp)

theorem length_furtherNames (ids : List Ident) : ids.length ≤ (furtherNames ids).length := by
  induction ids with
  | nil => exact Nat.le_refl 0
  | cons id ids ih =>
    have hcons : furtherNames (id :: ids) = Token.op "::" ++ .word id :: furtherNames ids := rfl
    rw [hcons]
    simp only [List.length_append, List.length_cons]
    omega

theorem ofTokens?_path {isAbsolute : Bool} {id : Ident} {ids : List Ident}
    (h : isForm typePath (placedPath isAbsolute (id :: ids)) = true) :
    ofTokens? (placedPath isAbsolute (id :: ids)) =
      some ⟨isAbsolute, ⟨id, []⟩, ids.map fun id => ⟨id, []⟩⟩ := by
  have hpath := path_cons id ids
  have hlength := length_furtherNames ids
  have hsegments : ∀ n, ids.length < n → segments? n (Token.path (id :: ids)) =
      some ((id :: ids).map fun id => ⟨id, []⟩) := fun n hn => segments?_path (by simp) hn
  unfold ofTokens?
  cases isAbsolute with
  | true =>
    have hcons : placedPath true (id :: ids) =
        .punct ':' true :: .punct ':' false :: Token.path (id :: ids) := rfl
    rw [if_pos h, hcons]
    simp only
    rw [hsegments]
    · rfl
    · rw [hpath]
      simp only [List.length_cons]
      omega
  | false =>
    have hcons : placedPath false (id :: ids) = Token.path (id :: ids) := rfl
    rw [if_pos h, hcons, hpath]
    simp only
    rw [← hpath, hsegments]
    · rfl
    · rw [hpath]
      simp only [List.length_cons]
      omega

/-- A plain text is read as a plain path. -/
theorem IsPlainText.parses {text : String} (h : IsPlainText text) :
    ∃ path, parse? text = some path ∧ path.IsPlain := by
  obtain ⟨isAbsolute, ids, hids, hwords, hlex⟩ := h
  obtain ⟨id, ids, rfl⟩ := List.exists_cons_of_ne_nil hids
  have hfits : FitsType isAbsolute (id :: ids) :=
    ⟨hids, fun id hid => .inl (hwords id hid), .inr ⟨id, rfl, hwords id List.mem_cons_self⟩⟩
  have hform : isForm typePath (placedPath isAbsolute (id :: ids)) = true := by
    have hends : EndsPath [] := nofun
    have hfollow := follow_typePath hfits hends.endsSegment
    rw [List.append_nil, hends.furtherSegments] at hfollow
    exact (isForm_iff (by decide)).mpr hfollow
  refine ⟨⟨isAbsolute, ⟨id, []⟩, ids.map fun id => ⟨id, []⟩⟩, ?_, ⟨?_, ?_⟩⟩
  · rw [parse?, hlex, Option.bind_some, ofTokens?_path hform]
  · intro s hs
    rcases List.mem_cons.mp hs with rfl | hs
    · rfl
    · obtain ⟨other, -, rfl⟩ := List.mem_map.mp hs
      rfl
  · intro other hother
    refine hwords other ?_
    simpa [names] using hother

end RuntimePath

end TaggedRows
