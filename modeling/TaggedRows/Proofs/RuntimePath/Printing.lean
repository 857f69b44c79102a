import TaggedRows.Proofs.Source.Pieces
import TaggedRows.Proofs.Source.Printing
import TaggedRows.RuntimePath

/-!
# The tokens of a runtime path are read again

A path is written with the tokens that it was read from, only the spacing of its punctuation may
change.

- **Cutting** (`Lexer.AreLexed.cut`): tokens that come from a text may be cut in front of
  punctuation.
- **Spacing** (`RuntimePath.prints_respace`): generic arguments are read again as they are spaced.
- **Paths** (`RuntimePath.rereads_of_parse?`): so a path that is read is read again.
-/

namespace TaggedRows

namespace Lexer

/-- The tokens are none, or begin with punctuation. -/
def BeginsPlain (ts : List Token) : Prop :=
  ∀ t ∈ ts.head?, ∃ c joint, t = .punct c joint

/-- No mark of a lifetime ends a part in front of punctuation. -/
theorem AreLexed.cut {as bs : List Token} (h : AreLexed (as ++ bs)) (hb : BeginsPlain bs) :
    AreLexed as ∧ AreLexed bs := by
  generalize hts : as ++ bs = ts at h
  induction h generalizing as with
  | nil =>
    obtain ⟨rfl, rfl⟩ := List.append_eq_nil_iff.mp hts
    exact ⟨.nil, .nil⟩
  | @spelled t ts plain spelled later ih =>
    obtain ⟨rfl, rfl⟩ | ⟨as, rfl, rfl⟩ := List.append_eq_cons_iff.mp hts
    · exact ⟨.nil, .spelled plain spelled later⟩
    · exact ⟨.spelled plain spelled (ih rfl).1, (ih rfl).2⟩
  | @punct c joint ts isPunct unquoted later ih =>
    obtain ⟨rfl, rfl⟩ | ⟨as, rfl, rfl⟩ := List.append_eq_cons_iff.mp hts
    · exact ⟨.nil, .punct isPunct unquoted later⟩
    · exact ⟨.punct isPunct unquoted (ih rfl).1, (ih rfl).2⟩
  | @mark u ts plain marks later ih =>
    obtain ⟨rfl, rfl⟩ | ⟨as, rfl, htail⟩ := List.append_eq_cons_iff.mp hts
    · exact ⟨.nil, .mark plain marks later⟩
    obtain ⟨rfl, rfl⟩ | ⟨as, rfl, rfl⟩ := List.append_eq_cons_iff.mp htail.symm
    · obtain ⟨c, joint, rfl⟩ := hb u rfl
      exact absurd rfl (plain c joint)
    · exact ⟨.mark plain marks (ih rfl).1, (ih rfl).2⟩

theorem AreLexed.of_word {id : Ident} {ts : List Token} (h : AreLexed (.word id :: ts)) :
    IsSpelled (.word id) ∧ AreLexed ts := by
  cases h with
  | spelled _ spelled later => exact ⟨spelled, later⟩

theorem AreLexed.of_punct {c : Char} {joint : Bool} {ts : List Token} (hc : c ≠ '\'')
    (h : AreLexed (.punct c joint :: ts)) : AreLexed ts := by
  cases h with
  | spelled plain => exact absurd rfl (plain c joint)
  | punct _ _ later => exact later
  | mark => exact absurd rfl hc

end Lexer

namespace RuntimePath

open Lexer Source
open Token (Prints Closed delimiters op)

/-! ## Spacing -/

theorem respace_cons {t : Token} (h : ∀ c joint, t ≠ .punct c joint) (ts : List Token) :
    respace (t :: ts) = t :: respace ts := by
  cases t with
  | punct c joint => exact absurd rfl (h c joint)
  | _ => cases ts <;> simp [respace]

theorem respace_mark {u : Token} (ts : List Token) :
    respace (.punct '\'' true :: u :: ts) = .punct '\'' true :: respace (u :: ts) := by
  cases u <;> simp [respace]

/-- Only the spacing of punctuation changes. -/
theorem respace_punct (c : Char) (joint : Bool) (ts : List Token) :
    ∃ joint', respace (.punct c joint :: ts) = .punct c joint' :: respace ts := by
  rcases ts with _ | ⟨_ | _ | _ | _ | _, ts⟩ <;> exact ⟨_, rfl⟩

theorem delimiters_respace (ts : List Token) : delimiters (respace ts) = delimiters ts := by
  induction ts with
  | nil => rfl
  | cons t ts ih =>
    by_cases ht : ∃ c joint, t = .punct c joint
    · obtain ⟨c, joint, rfl⟩ := ht
      obtain ⟨joint', heq⟩ := respace_punct c joint ts
      rw [heq]
      exact ih
    · rw [respace_cons fun c joint hc => ht ⟨c, joint, hc⟩]
      cases t <;> simpa [delimiters] using ih

theorem prints_respace {ts : List Token} (h : AreLexed ts) : Prints (respace ts) := by
  induction h with
  | nil => exact .nil
  | @spelled t ts plain spelled later ih =>
    rw [respace_cons plain]
    exact .spelled spelled ih
  | @punct c joint ts hpunct unquoted later ih =>
    have hsingle : Prints (.punct c false :: respace ts) :=
      .spelled (isSpelled_punct hpunct unquoted) ih
    rcases ts with _ | ⟨_ | ⟨d, joint'⟩ | _ | _ | _, ts⟩
    all_goals
      simp only [respace, unquoted, decide_false, Bool.false_or] at hsingle ⊢
    case cons.punct =>
      cases hop : joint && argumentOperators.contains [c, d] with
      | false => exact hsingle
      | true =>
        have hmem := (Bool.and_eq_true_iff.mp hop).2
        obtain ⟨joint'', heq⟩ := respace_punct d joint' ts
        rw [heq] at ih ⊢
        refine .operator (fun after => ?_) ih
        simp only [argumentOperators, List.contains_cons, List.contains_nil, Bool.or_false,
          Bool.or_eq_true, beq_iff_eq, List.cons.injEq, and_true] at hmem
        rcases hmem with ⟨rfl, rfl⟩ | ⟨rfl, rfl⟩ <;>
          exact reads_joint (by decide) (by decide) (by decide) (by decide) (by decide) after
    all_goals exact hsingle
  | @mark u ts plain marks later ih =>
    rw [respace_mark, respace_cons plain]
    exact .mark marks ih

/-! ## Paths -/

theorem prints_separator : Prints (op "::") :=
  .operator (fun after => reads_joint (by decide) (by decide) (by decide) (by decide) (by decide)
    after) (.spelled (isSpelled_punct (by decide) (by decide)) .nil)

/-- What the segments of a path are made of. -/
theorem segments?_eq_some {fuel : Nat} {ts : List Token} {ss : List PathSegment}
    (h : segments? fuel ts = some ss) (hts : AreLexed ts) :
    (∀ s ∈ ss, Prints (segmentTokens s)) ∧
      delimiters (ss.flatMap segmentTokens) = delimiters ts := by
  induction fuel generalizing ts ss with
  | zero => simp [segments?] at h
  | succ fuel ih =>
    have more : ∀ {id slice ts ss}, IsSpelled (.word id) → AreLexed (slice ++ ts) →
        segments?.more id (respace slice) ts fuel = some ss →
        (∀ s ∈ ss, Prints (segmentTokens s)) ∧
          delimiters (ss.flatMap segmentTokens) = delimiters (slice ++ ts) := by
      intro id slice ts ss hid hlexed hm
      have hfirst : AreLexed slice → Prints (segmentTokens ⟨id, respace slice⟩) := fun h =>
        .spelled hid (prints_respace h)
      have hdelimiters : delimiters (segmentTokens ⟨id, respace slice⟩) = delimiters slice :=
        delimiters_respace slice
      unfold segments?.more at hm
      split at hm
      · cases hm
        refine ⟨fun s hs => ?_, by simpa using hdelimiters⟩
        cases List.mem_singleton.mp hs
        exact hfirst (hlexed.cut (by simp [BeginsPlain])).1
      · obtain ⟨ss', hss, rfl⟩ := Option.map_eq_some_iff.mp hm
        obtain ⟨hslice, hrest⟩ := hlexed.cut fun t ht => ⟨_, _, (Option.some.inj ht).symm⟩
        obtain ⟨hall, hmore⟩ := ih hss ((hrest.of_punct (by decide)).of_punct (by decide))
        refine ⟨fun s hs => ?_, ?_⟩
        · rcases List.mem_cons.mp hs with rfl | hs
          · exact hfirst hslice
          · exact hall s hs
        · rw [List.flatMap_cons, delimiters, List.filter_append, List.filter_append]
          exact congr (congrArg _ hdelimiters) hmore
      · cases hm
    unfold segments? at h
    split at h
    · next fuel' id ts' hf =>
      cases hf
      obtain ⟨hid, hlater⟩ := hts.of_word
      split at h
      · next rest ht =>
        obtain ⟨slice, rfl⟩ := takeForm?_suffix ht
        rw [List.length_append, Nat.add_sub_cancel, List.take_left] at h
        exact more hid hlater h
      · have hslice : AreLexed ([] ++ ts') := hlater
        have hmore := more hid hslice h
        exact hmore
    · cases h

theorem rereads_of_segments? {fuel : Nat} {ts : List Token} {ss : List PathSegment}
    {isAbsolute : Bool} {path : RuntimePath} (hts : AreLexed ts) (hclosed : Closed ts)
    (h : segments? fuel ts = some ss) (hpath : ofTokens?.build isAbsolute ss = some path) :
    Token.Rereads path.tokens := by
  obtain ⟨hsegments, hdelimiters⟩ := segments?_eq_some h hts
  cases ss with
  | nil => cases hpath
  | cons s ss =>
    cases hpath
    refine ⟨?_, ?_⟩
    · refine (Prints.append ?_ (hsegments s List.mem_cons_self)).append ?_
      · cases isAbsolute
        · exact .nil
        · exact prints_separator
      · exact .flatMap fun s hs =>
          prints_separator.append (hsegments s (List.mem_cons_of_mem _ hs))
    · refine (Token.closed_congr ?_).mpr hclosed
      rw [← hdelimiters, List.flatMap_cons]
      simp only [tokens, delimiters, List.filter_append, List.filter_flatMap]
      cases isAbsolute <;> rfl

theorem rereads_of_parse? {text : String} {path : RuntimePath} (h : parse? text = some path) :
    Token.Rereads path.tokens := by
  obtain ⟨ts, hlex, hpath⟩ := Option.bind_eq_some_iff.mp h
  have hlexed := areLexed_of_lex? hlex
  have hclosed := Token.closed_of_lex? hlex
  unfold ofTokens? at hpath
  split at hpath
  · split at hpath
    · obtain ⟨ss, hss, hbuild⟩ := Option.bind_eq_some_iff.mp hpath
      refine rereads_of_segments? ((hlexed.of_punct (by decide)).of_punct (by decide)) ?_ hss
        hbuild
      exact (Token.closed_congr rfl).mpr hclosed
    · obtain ⟨ss, hss, hbuild⟩ := Option.bind_eq_some_iff.mp hpath
      exact rereads_of_segments? hlexed hclosed hss hbuild
  · cases hpath

end RuntimePath

end TaggedRows
