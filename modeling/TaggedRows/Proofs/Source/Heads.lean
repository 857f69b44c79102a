import TaggedRows.Proofs.Source.Nesting
import TaggedRows.Proofs.Source.Paths

/-!
# Attributes and visibilities in front of an item

An item and a field are read from the tokens that the grammar took for them, and apart from it: what
stands in front of their words is dropped again. It is what the grammar takes there.

- **Attributes** (`Source.of_follow_outerAttributes`, `Source.takeAttributes_append`).
- **Visibilities** (`Source.of_follow_visibility`, `Source.dropVisibility_append`).
- **Items** (`Source.follow_itemCore`): what is left of an item is a declaration.
-/

namespace TaggedRows.Source

open Form

variable {f : SForm} {c : TokenClass} {ts mid rest X : List Token}

/-! ## Accepted forms -/

theorem of_follow_token (h : follow (.token c) ts = .accepted rest) :
    ∃ t, ts = t :: rest ∧ c.admits t = true := by
  obtain ⟨n, hn⟩ := exists_run_eq_follow (.token c) ts
  exact run_token_accepted ((hn n (Nat.le_refl n)).trans h)

/-- A class of tokens only looks at the first one. -/
theorem follow_token_refused {t : Token} (h : follow (.token c) (t :: ts) = .refused)
    (X : List Token) : follow (.token c) (t :: X) = .refused := by
  rw [follow_token_cons] at h ⊢
  split at h
  · cases h
  · next hno => exact if_neg hno

theorem of_follow_kw {s : String} (h : follow (kw s) ts = .accepted rest) :
    ts = Token.kw s :: rest := by
  obtain ⟨t, rfl, ht⟩ := of_follow_token h
  cases t with
  | word id =>
    obtain ⟨raw, name⟩ := id
    simp only [TokenClass.admits, Bool.and_eq_true, Bool.not_eq_true', beq_iff_eq] at ht
    obtain ⟨rfl, rfl⟩ := ht
    rfl
  | _ => cases ht

theorem of_follow_group {d : Delimiter} (h : follow (group d f) ts = .accepted rest) :
    ∃ inner, ts = .opening d :: inner ∧ follow f inner = .accepted (.closing d :: rest) := by
  rw [group, follow_seq] at h
  obtain ⟨inner, hopen, h⟩ := Outcome.andThen_eq_accepted.mp h
  rw [follow_seq] at h
  obtain ⟨last, hf, hclose⟩ := Outcome.andThen_eq_accepted.mp h
  obtain ⟨t, rfl, ht⟩ := of_follow_token hopen
  obtain ⟨u, rfl, hu⟩ := of_follow_token hclose
  cases t with
  | opening e =>
    obtain rfl : d = e := by simpa [TokenClass.admits] using ht
    cases u with
    | closing e =>
      obtain rfl : d = e := by simpa [TokenClass.admits] using hu
      exact ⟨inner, rfl, hf⟩
    | _ => cases hu
  | _ => cases ht

theorem suffix_of_follow (h : follow f ts = .accepted rest) : rest <:+ ts := by
  obtain ⟨n, hn⟩ := exists_run_eq_follow f ts
  exact run_suffix ((hn n (Nat.le_refl n)).trans h)

/-- A form that takes a token where it accepts does so. -/
theorem length_lt_of_follow (hf : eats eatsPhrase f = true) (h : follow f ts = .accepted rest) :
    rest.length < ts.length := by
  obtain ⟨n, hn⟩ := exists_run_eq_follow f ts
  exact length_lt_of_eats eats_grammar hf ((hn n (Nat.le_refl n)).trans h)

/-! ## Attributes -/

/-- The tokens of attributes, each with what stands between its brackets. -/
def attributesOf (bodies : List (Bool × List Token)) : List Token :=
  bodies.flatMap fun body => .punct '#' body.1 :: Token.within .bracket body.2

theorem of_follow_attribute (h : follow (.phrase .attribute) ts = .accepted rest) :
    ∃ joint body, ts = .punct '#' joint :: (Token.within .bracket body ++ rest) ∧
      IsTrees body := by
  rw [follow_phrase] at h
  change follow (.seq (.token (.punct '#')) (bracket attributeBody)) _ = _ at h
  rw [follow_seq] at h
  obtain ⟨mid, hmark, hbody⟩ := Outcome.andThen_eq_accepted.mp h
  obtain ⟨t, rfl, ht⟩ := of_follow_token hmark
  obtain ⟨inner, rfl, hinner⟩ := of_follow_group hbody
  obtain ⟨body, rfl, htrees⟩ := isTrees_of_follow (by decide) hinner
  cases t with
  | punct c joint =>
    obtain rfl : '#' = c := by simpa [TokenClass.admits] using ht
    exact ⟨joint, body, by simp [Token.within], htrees⟩
  | _ => cases ht

/-- The attributes in front of something that does not begin with one. -/
theorem of_follow_outerAttributes (h : follow outerAttributes ts = .accepted rest) :
    ∃ bodies, ts = attributesOf bodies ++ rest ∧ (∀ body ∈ bodies, IsTrees body.2) ∧
      follow (op "#") rest = .refused := by
  generalize hn : ts.length = n
  induction n using Nat.strongRecOn generalizing ts with
  | ind n ih =>
    rw [outerAttributes, follow_loop] at h
    rcases Outcome.branch_eq_accepted.mp h with ⟨-, h⟩ | ⟨hno, h⟩
    · obtain ⟨mid, hfirst, hmore⟩ := Outcome.andThen_eq_accepted.mp h
      obtain ⟨joint, body, rfl, hbody⟩ := of_follow_attribute hfirst
      have hlt : mid.length < n := by
        rw [← hn]
        simp only [Token.within, List.length_cons, List.length_append]
        omega
      obtain ⟨bodies, rfl, hbodies, hno⟩ := ih _ hlt hmore rfl
      refine ⟨(joint, body) :: bodies, by simp [attributesOf], ?_, hno⟩
      exact List.forall_mem_cons.mpr ⟨hbody, hbodies⟩
    · cases h
      exact ⟨[], rfl, List.forall_mem_nil _, hno⟩

/-- Attributes are dropped by their brackets. -/
theorem takeAttributes_append {bodies : List (Bool × List Token)}
    (hbodies : ∀ body ∈ bodies, IsTrees body.2) (hX : follow (op "#") X = .refused) {n : Nat}
    (hn : (attributesOf bodies ++ X).length ≤ n) :
    (takeAttributes n (attributesOf bodies ++ X)).2 = X := by
  induction bodies generalizing n with
  | nil =>
    change (takeAttributes n X).2 = X
    unfold takeAttributes
    split
    · next joint ts =>
      have hmark : follow (op "#") (.punct '#' joint :: ts) = .accepted ts :=
        follow_of_run (n := 9) rfl (by simp)
      rw [hmark] at hX
      cases hX
    · rfl
  | cons body bodies ih =>
    obtain ⟨joint, body⟩ := body
    obtain ⟨hbody, hrest⟩ := List.forall_mem_cons.mp hbodies
    have hsplit : attributesOf ((joint, body) :: bodies) ++ X =
        .punct '#' joint :: (.opening .bracket :: (body ++ .closing .bracket ::
          (attributesOf bodies ++ X))) := by
      simp [attributesOf, Token.within]
    rw [hsplit] at hn ⊢
    simp only [List.length_cons, List.length_append] at hn
    have hdelimited := (takeForm?_eq_some (by decide : settles delimited = true)).mpr
      (follow_delimited hbody .bracket .bracket (attributesOf bodies ++ X))
    cases n with
    | zero => omega
    | succ n =>
      have hlength : (attributesOf bodies ++ X).length ≤ n := by
        simp only [List.length_append]
        omega
      rw [takeAttributes, split?, hdelimited]
      exact ih hrest hlength

/-- The attributes that the grammar takes are dropped. -/
theorem takeAttributes_of_follow {piece : List Token} {t : Token}
    (h : follow outerAttributes (piece ++ rest) = .accepted (t :: X ++ rest)) :
    (takeAttributes piece.length piece).2 = t :: X := by
  obtain ⟨bodies, heq, hbodies, hmark⟩ := of_follow_outerAttributes h
  rw [← List.append_assoc] at heq
  obtain rfl := List.append_cancel_right heq
  exact takeAttributes_append hbodies (follow_token_refused hmark X) (Nat.le_refl _)

/-! ## Visibilities -/

theorem follow_oneOf_tokens (cs : List TokenClass) (t : Token) (X : List Token) :
    follow (oneOf (cs.map .token)) (t :: X) =
      if cs.any (fun c => c.admits t) then .accepted X else .refused := by
  induction cs with
  | nil => simp [oneOf]
  | cons c cs ih =>
    cases cs with
    | nil => simp [oneOf]
    | cons d cs =>
      rw [List.map_cons, List.map_cons, follow_oneOf_cons, ← List.map_cons, ih, follow_token_cons]
      cases hc : c.admits t <;> simp [hc]

/-- The words are a path, whatever stands behind the group that it ends. -/
def ClosesPath (f : SForm) (as : List Token) : Prop :=
  ∀ d X, follow f (as ++ .closing d :: X) = .accepted (.closing d :: X)

theorem of_follow_pathWord (h : follow pathWord ts = .accepted rest) :
    ∃ id, ts = .word id :: rest ∧ ∀ X, follow pathWord (.word id :: X) = .accepted X := by
  have hword : ∀ t X, follow pathWord (t :: X) =
      if [TokenClass.name, .kw "super", .kw "self", .kw "Self", .kw "crate"].any
        (fun c => c.admits t) then .accepted X else .refused := fun t X =>
    follow_oneOf_tokens [.name, .kw "super", .kw "self", .kw "Self", .kw "crate"] t X
  cases ts with
  | nil =>
    have hnil : follow pathWord [] = .refused := follow_of_run (n := 9) rfl (by simp)
    rw [hnil] at h
    cases h
  | cons t ts =>
    rw [hword] at h
    split at h
    · next ht =>
      cases h
      cases t with
      | word id => exact ⟨id, rfl, fun X => by rw [hword, if_pos ht]⟩
      | _ => cases ht
    · cases h

theorem of_follow_pathSep (h : follow pathSep ts = .accepted rest) :
    ∃ joint, ts = .punct ':' true :: .punct ':' joint :: rest := by
  change follow (.seq (.token (.joint ':')) (.token (.punct ':'))) _ = _ at h
  rw [follow_seq] at h
  obtain ⟨mid, hfirst, hsecond⟩ := Outcome.andThen_eq_accepted.mp h
  obtain ⟨t, rfl, ht⟩ := of_follow_token hfirst
  obtain ⟨u, rfl, hu⟩ := of_follow_token hsecond
  cases t with
  | punct c joint =>
    obtain ⟨rfl, rfl⟩ : ':' = c ∧ joint = true := by simpa [TokenClass.admits] using ht
    cases u with
    | punct d joint' =>
      obtain rfl : ':' = d := by simpa [TokenClass.admits] using hu
      exact ⟨joint', rfl⟩
    | _ => cases hu
  | _ => cases ht

theorem of_follow_furtherWords (h : follow furtherWords ts = .accepted rest) :
    ∃ as, ts = as ++ rest ∧ ClosesPath furtherWords as := by
  generalize hn : ts.length = n
  induction n using Nat.strongRecOn generalizing ts with
  | ind n ih =>
    rw [furtherWords, follow_loop] at h
    rcases Outcome.branch_eq_accepted.mp h with ⟨-, h⟩ | ⟨-, h⟩
    · obtain ⟨mid, hfirst, hmore⟩ := Outcome.andThen_eq_accepted.mp h
      rw [follow_seq] at hfirst
      obtain ⟨mid', hsep, hword⟩ := Outcome.andThen_eq_accepted.mp hfirst
      obtain ⟨joint, rfl⟩ := of_follow_pathSep hsep
      obtain ⟨id, rfl, hid⟩ := of_follow_pathWord hword
      have hlt : mid.length < n := by
        rw [← hn]
        simp only [List.length_cons]
        omega
      obtain ⟨as, rfl, has⟩ := ih _ hlt hmore rfl
      refine ⟨.punct ':' true :: .punct ':' joint :: .word id :: as, rfl, fun d X => ?_⟩
      have hsep' : ∀ Y, follow pathSep (.punct ':' true :: .punct ':' joint :: .word id :: Y) =
          .accepted (.word id :: Y) := fun Y => follow_of_run (n := 9) rfl (by simp)
      rw [furtherWords, follow_loop]
      simp only [List.cons_append]
      rw [hsep', Outcome.branch_accepted, follow_seq, hsep', Outcome.andThen_accepted, hid,
        Outcome.andThen_accepted]
      exact has d X
    · cases h
      refine ⟨[], rfl, fun d X => ?_⟩
      have hsep : follow pathSep (.closing d :: X) = .refused :=
        follow_of_run (n := 9) rfl (by simp)
      rw [furtherWords, follow_loop, List.nil_append, hsep, Outcome.branch_refused]

theorem of_follow_plainPath (h : follow plainPath ts = .accepted rest) :
    ∃ as, ts = as ++ rest ∧ ClosesPath plainPath as := by
  have hplain : ∀ ts, follow plainPath ts = (follow (optIf pathSep pathSep) ts).andThen
      fun mid => (follow pathWord mid).andThen (follow furtherWords) := fun ts => by
    rw [plainPath, follow_list_cons]
    congr 1
    funext mid
    rw [follow_list_cons]
    rfl
  rw [hplain] at h
  obtain ⟨mid, hsep, h⟩ := Outcome.andThen_eq_accepted.mp h
  obtain ⟨mid', hword, hmore⟩ := Outcome.andThen_eq_accepted.mp h
  obtain ⟨id, rfl, hid⟩ := of_follow_pathWord hword
  obtain ⟨as, rfl, has⟩ := of_follow_furtherWords hmore
  obtain ⟨lead, rfl, hlead⟩ : ∃ lead, ts = lead ++ .word id :: (as ++ rest) ∧
      ∀ Y, follow (optIf pathSep pathSep) (lead ++ .word id :: Y) = .accepted (.word id :: Y) := by
    rw [follow_optIf] at hsep
    rcases Outcome.branch_eq_accepted.mp hsep with ⟨-, hsep⟩ | ⟨hno, hsep⟩
    · obtain ⟨joint, rfl⟩ := of_follow_pathSep hsep
      exact ⟨[.punct ':' true, .punct ':' joint], rfl,
        fun Y => follow_of_run (n := 9) rfl (by simp)⟩
    · cases hsep
      refine ⟨[], rfl, fun Y => ?_⟩
      rw [follow_optIf, List.nil_append, follow_pathSep_word, Outcome.branch_refused]
  refine ⟨lead ++ .word id :: as, by simp, fun d X => ?_⟩
  rw [List.append_assoc, List.cons_append, hplain, hlead, Outcome.andThen_accepted, hid,
    Outcome.andThen_accepted]
  exact has d X

/-- What is taken as a visibility is taken as one in front of any word. -/
theorem of_follow_visibility (h : follow visibility ts = .accepted rest) :
    follow (kw "pub") ts = .refused ∧ rest = ts ∨
    ∃ as, ts = Token.kw "pub" :: (as ++ rest) ∧ ∀ id X,
      follow visibility (Token.kw "pub" :: (as ++ .word id :: X)) = .accepted (.word id :: X) := by
  let isRestricted : SForm := .seq openParen (.ite (kw "in") (kw "in")
    (.seq (oneOf [kw "crate", kw "self", kw "super"]) anyClose))
  have hvisibility : ∀ ts, follow visibility ts = (follow (kw "pub") ts).branch
      ((follow (kw "pub") ts).andThen (follow (optIf isRestricted (paren restriction))))
      (.accepted ts) := fun ts => by
    rw [visibility, follow_optIf, follow_seq]
  have hpub : ∀ X, follow (kw "pub") (Token.kw "pub" :: X) = .accepted X :=
    fun X => follow_of_run (n := 9) rfl (by simp)
  rw [hvisibility] at h
  rcases Outcome.branch_eq_accepted.mp h with ⟨-, h⟩ | ⟨hno, h⟩
  · obtain ⟨mid, hfirst, hmore⟩ := Outcome.andThen_eq_accepted.mp h
    obtain rfl := of_follow_kw hfirst
    rw [follow_optIf] at hmore
    rcases Outcome.branch_eq_accepted.mp hmore with ⟨-, hmore⟩ | ⟨-, hmore⟩
    · obtain ⟨inner, rfl, hinner⟩ := of_follow_group hmore
      rw [restriction, follow_ite] at hinner
      rcases Outcome.branch_eq_accepted.mp hinner with ⟨-, hin⟩ | ⟨-, hword⟩
      · rw [follow_seq] at hin
        obtain ⟨path, hfirst, hpath⟩ := Outcome.andThen_eq_accepted.mp hin
        obtain rfl := of_follow_kw hfirst
        obtain ⟨as, rfl, has⟩ := of_follow_plainPath hpath
        refine .inr ⟨.opening .paren :: Token.kw "in" :: (as ++ [.closing .paren]), by simp,
          fun id X => ?_⟩
        have hin : ∀ Y, follow (kw "in") (Token.kw "in" :: Y) = .accepted Y :=
          fun Y => follow_of_run (n := 9) rfl (by simp)
        have htest : ∀ Y, follow isRestricted (.opening .paren :: Token.kw "in" :: Y) =
            .accepted Y := fun Y => follow_of_run (n := 9) rfl (by simp)
        have hgroup : follow (paren restriction) (Token.within .paren (Token.kw "in" :: as) ++
            .word id :: X) = .accepted (.word id :: X) := by
          refine follow_group ?_
          rw [List.cons_append, restriction, follow_ite, hin, Outcome.branch_accepted, follow_seq,
            hin, Outcome.andThen_accepted, has]
        have hsplit : .opening .paren :: Token.kw "in" :: (as ++ [.closing .paren]) ++
            .word id :: X = Token.within .paren (Token.kw "in" :: as) ++ .word id :: X := by
          simp [Token.within]
        rw [hvisibility, hpub, Outcome.branch_accepted, Outcome.andThen_accepted, hsplit,
          follow_optIf, hgroup]
        exact congrArg (Outcome.branch · _ _) (htest _)
      · have hwords : ∃ s ∈ ["crate", "self", "super"],
            inner = Token.kw s :: .closing .paren :: rest := by
          rw [follow_oneOf_cons] at hword
          rcases Outcome.branch_eq_accepted.mp hword with ⟨-, h⟩ | ⟨-, h⟩
          · exact ⟨"crate", by simp, of_follow_kw h⟩
          rw [follow_oneOf_cons] at h
          rcases Outcome.branch_eq_accepted.mp h with ⟨-, h⟩ | ⟨-, h⟩
          · exact ⟨"self", by simp, of_follow_kw h⟩
          · exact ⟨"super", by simp, of_follow_kw h⟩
        obtain ⟨s, hs, rfl⟩ := hwords
        refine .inr ⟨[.opening .paren, Token.kw s, .closing .paren], rfl, fun id X => ?_⟩
        simp only [List.mem_cons, List.not_mem_nil, or_false] at hs
        rcases hs with rfl | rfl | rfl <;> exact follow_of_run (n := 20) rfl (by simp)
    · cases hmore
      exact .inr ⟨[], rfl, fun id X => follow_of_run (n := 20) rfl (by simp)⟩
  · cases h
    exact .inl ⟨hno, rfl⟩

/-- The visibility in front of a word is dropped, whatever stands behind. -/
theorem dropVisibility_append {id : Ident} {as : List Token} (rest : List Token)
    (h : follow visibility (as ++ rest) = .accepted (.word id :: X ++ rest))
    (hid : id ≠ .plain "pub") : dropVisibility as = .word id :: X := by
  have hsettles : settles visibility = true := by decide
  have hfirst : follow visibility as = .accepted (.word id :: X) := by
    obtain ⟨-, heq⟩ | ⟨vs, heq, hforward⟩ := of_follow_visibility h
    · obtain rfl := List.append_cancel_right heq
      have hno : follow (kw "pub") (.word id :: X) = .refused := by
        have hadmits : (TokenClass.kw "pub").admits (.word id) = false := by
          rw [Bool.eq_false_iff]
          intro ht
          obtain ⟨raw, name⟩ := id
          simp only [TokenClass.admits, Bool.and_eq_true, Bool.not_eq_true', beq_iff_eq] at ht
          exact hid (by rw [ht.1, ht.2]; rfl)
        rw [Form.kw, follow_token_cons, hadmits]
        rfl
      rw [visibility, follow_optIf, hno, Outcome.branch_refused]
    · rw [← List.append_assoc, ← List.cons_append] at heq
      obtain rfl := List.append_cancel_right heq
      exact hforward id X
  rw [dropVisibility, (takeForm?_eq_some hsettles).mpr hfirst]
  rfl

end TaggedRows.Source
