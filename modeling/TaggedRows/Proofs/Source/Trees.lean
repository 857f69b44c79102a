import TaggedRows.Accessor.Tokens
import TaggedRows.Proofs.Source.Following

/-!
# What stands between delimiters

A sequence in which every delimiter that is opened is closed again is followed to its end where
anything may stand between delimiters. Where items with commas between them may stand, they are
followed to their end when each of them is.

- **Token trees** (`Source.IsTrees`): by their leaves and groups; `Source.follow_trees`,
  `Source.follow_delimited`.
- **Items** (`Source.IsItem`, `Source.follow_commaList`).
-/

namespace TaggedRows.Source

open Form

variable {as bs X : List Token} {t : Token}

/-- The token is no delimiter. -/
def IsLeaf (t : Token) : Prop :=
  TokenClass.anyOpening.admits t = false ∧ TokenClass.anyClosing.admits t = false

/-- Every delimiter is closed again, by one of any kind. -/
inductive IsTrees : List Token → Prop where
  | nil : IsTrees []
  | leaf {t : Token} {ts : List Token} (leaf : IsLeaf t) (later : IsTrees ts) : IsTrees (t :: ts)
  | group {d e : Delimiter} {ts us : List Token} (inner : IsTrees ts) (later : IsTrees us) :
      IsTrees (.opening d :: (ts ++ .closing e :: us))

theorem IsTrees.append (ha : IsTrees as) (hb : IsTrees bs) : IsTrees (as ++ bs) := by
  induction ha with
  | nil => exact hb
  | leaf leaf _ ih => exact .leaf leaf ih
  | @group d e ts us inner _ _ ih =>
    rw [List.cons_append, List.append_assoc, List.cons_append]
    exact .group inner ih

/-- No token is a delimiter. -/
def isFlat (ts : List Token) : Bool :=
  ts.all fun t => !TokenClass.anyOpening.admits t && !TokenClass.anyClosing.admits t

theorem isTrees_of_isFlat (h : isFlat as = true) : IsTrees as := by
  induction as with
  | nil => exact .nil
  | cons t ts ih =>
    obtain ⟨ht, hts⟩ := Bool.and_eq_true_iff.mp h
    rw [Bool.and_eq_true_iff, Bool.not_eq_true', Bool.not_eq_true'] at ht
    exact .leaf ht (ih hts)

theorem isTrees_path (ids : List Ident) : IsTrees (Token.path ids) := by
  induction ids with
  | nil => exact .nil
  | cons id ids ih =>
    cases ids with
    | nil => exact isTrees_of_isFlat rfl
    | cons next ids =>
      rw [Token.path, ← List.singleton_append]
      · exact (isTrees_of_isFlat rfl).append ((isTrees_of_isFlat rfl).append ih)
      · simp

theorem isTrees_commas {items : List (List Token)} (h : ∀ ts ∈ items, IsTrees ts) :
    IsTrees (Token.commas items) := by
  induction items with
  | nil => exact .nil
  | cons ts items ih =>
    obtain ⟨hts, hitems⟩ := List.forall_mem_cons.mp h
    cases items with
    | nil => exact hts
    | cons us items =>
      rw [Token.commas]
      · exact (hts.append (isTrees_of_isFlat rfl)).append (ih hitems)
      · simp

/-- Any number of token trees. -/
def trees : SForm := .loop (never anyClose) (.phrase .tree)

theorem follow_tree_opening (d : Delimiter) (X : List Token) :
    follow (.phrase .tree) (.opening d :: X) = (follow trees X).andThen (follow anyClose) := by
  have hopen : follow anyOpen (.opening d :: X) = .accepted X := follow_token_cons
  rw [follow_phrase]
  change follow treeForm _ = _
  rw [treeForm, follow_ite, hopen, Outcome.branch_accepted, follow_list_cons, hopen,
    Outcome.andThen_accepted, follow_list_cons]
  rfl

theorem follow_tree_leaf (h : IsLeaf t) (X : List Token) :
    follow (.phrase .tree) (t :: X) = .accepted X := by
  have hopen : follow anyOpen (t :: X) = .refused := by
    rw [anyOpen, follow_token_cons, h.1]
    rfl
  rw [follow_phrase]
  change follow treeForm _ = _
  rw [treeForm, follow_ite, hopen, Outcome.branch_refused, follow_token_cons]
  rfl

theorem follow_trees_closing (e : Delimiter) (X : List Token) :
    follow trees (.closing e :: X) = .accepted (.closing e :: X) := by
  have htest : follow (never anyClose) (.closing e :: X) = .refused := by
    rw [follow_never, anyClose, follow_token_cons]
    rfl
  rw [trees, follow_loop, htest]
  rfl

theorem follow_trees_cons (h : TokenClass.anyClosing.admits t = false) (X : List Token) :
    follow trees (t :: X) = (follow (.phrase .tree) (t :: X)).andThen (follow trees) := by
  have htest : follow (never anyClose) (t :: X) = .accepted (t :: X) := by
    rw [follow_never, anyClose, follow_token_cons, h]
    rfl
  rw [trees, follow_loop, htest]
  rfl

/-- Token trees are followed up to the next delimiter that closes. -/
theorem follow_trees (h : IsTrees as) (e : Delimiter) (X : List Token) :
    follow trees (as ++ .closing e :: X) = .accepted (.closing e :: X) := by
  induction h generalizing e X with
  | nil => exact follow_trees_closing e X
  | @leaf t ts leaf _ ih =>
    rw [List.cons_append, follow_trees_cons leaf.2, follow_tree_leaf leaf,
      Outcome.andThen_accepted, ih]
  | @group d e' ts us _ _ ihInner ihLater =>
    have hclose : follow anyClose (.closing e' :: (us ++ .closing e :: X)) =
        .accepted (us ++ .closing e :: X) := follow_token_cons
    rw [List.cons_append, List.append_assoc, List.cons_append, follow_trees_cons rfl,
      follow_tree_opening, ihInner, Outcome.andThen_accepted, hclose, Outcome.andThen_accepted,
      ihLater]

theorem follow_delimited (h : IsTrees as) (d e : Delimiter) (X : List Token) :
    follow delimited (.opening d :: (as ++ .closing e :: X)) = .accepted X := by
  have hopen : follow anyOpen (.opening d :: (as ++ .closing e :: X)) =
      .accepted (as ++ .closing e :: X) := follow_token_cons
  rw [delimited, follow_seq, follow_look, hopen, Outcome.branch_accepted,
    Outcome.andThen_accepted, follow_tree_opening, follow_trees h, Outcome.andThen_accepted]
  exact follow_token_cons

/-- A group is followed to its end when what stands in it is, and only then. -/
theorem follow_group_acceptedIf {f : SForm} {d : Delimiter} {b : Bool}
    (h : follow f (as ++ .closing d :: X) = .acceptedIf b (.closing d :: X)) :
    follow (group d f) (Token.within d as ++ X) = .acceptedIf b X := by
  have hopen : follow (.token (.opening d)) (Token.within d as ++ X) =
      .accepted (as ++ .closing d :: X) := by
    rw [Token.within, List.cons_append, List.append_assoc, follow_token_cons]
    exact if_pos (beq_self_eq_true d)
  have hclose : follow (.token (.closing d)) (.closing d :: X) = .acceptedIf true X := by
    rw [follow_token_cons]
    exact if_pos (beq_self_eq_true d)
  rw [group, follow_seq, hopen, Outcome.andThen_accepted, follow_seq, h,
    Outcome.andThen_acceptedIf b true fun _ => hclose, Bool.and_true]

theorem follow_group {f : SForm} {d : Delimiter}
    (h : follow f (as ++ .closing d :: X) = .accepted (.closing d :: X)) :
    follow (group d f) (Token.within d as ++ X) = .accepted X :=
  follow_group_acceptedIf (b := true) h

/-! ## Items between commas -/

/-- An item ends here: with a comma, or with the group around it. -/
inductive EndsItem : List Token → Prop where
  | comma (X : List Token) : EndsItem (Token.op "," ++ X)
  | closing (d : Delimiter) (X : List Token) : EndsItem (.closing d :: X)

/-- The tokens are followed to their end where an item ends behind them. -/
structure IsItem (item : SForm) (ts : List Token) : Prop where
  opens : ∀ X, follow anyClose (ts ++ X) = .refused
  ends : ∀ {X}, EndsItem X → follow item (ts ++ X) = .accepted X

variable {item : SForm} {d : Delimiter}

theorem follow_commaList_closing (item : SForm) (d : Delimiter) (X : List Token) :
    follow (commaList item) (.closing d :: X) = .accepted (.closing d :: X) := by
  have htest : follow (never anyClose) (.closing d :: X) = .refused :=
    follow_of_run (n := 9) rfl (by simp)
  rw [commaList, follow_loop]
  exact congrArg (Outcome.branch · _ _) htest

/-- What an item and the comma behind it leave. -/
theorem IsItem.follow_commaList (h : IsItem item as) {bs : List Token} (hbs : EndsItem bs) :
    follow (commaList item) (as ++ bs) =
      (follow (.ite (.token .anyClosing) .empty (op ",")) bs).andThen
        (follow (commaList item)) := by
  have htest : follow (never (.token .anyClosing)) (as ++ bs) = .accepted (as ++ bs) := by
    rw [follow_never]
    exact congrArg (Outcome.branch · _ _) (h.opens bs)
  rw [commaList, follow_loop, htest, Outcome.branch_accepted, follow_seq, h.ends hbs,
    Outcome.andThen_accepted]

theorem IsItem.follow_commaList_comma (h : IsItem item as) (X : List Token) :
    follow (commaList item) (as ++ (Token.op "," ++ X)) = follow (commaList item) X := by
  have hcomma : follow (.ite (.token .anyClosing) .empty (op ",")) (Token.op "," ++ X) =
      .accepted X := follow_of_run (n := 9) rfl (by simp)
  rw [h.follow_commaList (.comma X), hcomma, Outcome.andThen_accepted]

theorem IsItem.follow_commaList_last (h : IsItem item as) (d : Delimiter) (X : List Token) :
    follow (commaList item) (as ++ .closing d :: X) = .accepted (.closing d :: X) := by
  have hclosing : follow (.ite (.token .anyClosing) .empty (op ",")) (.closing d :: X) =
      .accepted (.closing d :: X) := follow_of_run (n := 9) rfl (by simp)
  rw [h.follow_commaList (.closing d X), hclosing, Outcome.andThen_accepted,
    follow_commaList_closing]

/-- Items with commas between them are followed to the end of the group, also with a comma behind
the last one. -/
theorem follow_commaList {items : List (List Token)} (h : ∀ ts ∈ items, IsItem item ts)
    {comma : Bool} (hcomma : comma = true → items ≠ []) (d : Delimiter) (X : List Token) :
    follow (commaList item)
      (Token.commas items ++ ((if comma then Token.op "," else []) ++ .closing d :: X)) =
      .accepted (.closing d :: X) := by
  induction items with
  | nil =>
    cases comma with
    | false => exact follow_commaList_closing item d X
    | true => exact absurd rfl (hcomma rfl)
  | cons ts items ih =>
    obtain ⟨hts, hitems⟩ := List.forall_mem_cons.mp h
    cases items with
    | nil =>
      cases comma with
      | false => exact hts.follow_commaList_last d X
      | true =>
        exact (hts.follow_commaList_comma _).trans (follow_commaList_closing item d X)
    | cons us items =>
      have hcommas : Token.commas (ts :: us :: items) =
          ts ++ (Token.op "," ++ Token.commas (us :: items)) := by
        simp [Token.commas]
      rw [hcommas, List.append_assoc, List.append_assoc, hts.follow_commaList_comma]
      exact ih hitems fun _ => by simp

end TaggedRows.Source
