import TaggedRows.RuntimePath
import TaggedRows.Proofs.Source.Pieces

/-!
# The generic arguments in a runtime path

- **Inversion** (`Form.run_seq_accepted`, `Form.run_look_accepted`, …): what an accepted sequence of
  forms or a look ahead says about the tokens.
- **Arguments** (`RuntimePath.HasArguments`, `hasArguments_of_parse?`): generic arguments begin with
  a separator or with an angle bracket, in every path that is read.
- **The default** (`RuntimePath.parse?_defaultText`).
- **Second tokens** (`RuntimePath.tokensOf_continues`): so the path of something in the runtime is
  no single word, whatever comes after it.
-/

namespace TaggedRows

namespace Form

variable {P : Type} {grammar : P → Form P} {n : Nat} {ts rest : List Token}

theorem run_seq_accepted {a b : Form P} (h : run grammar n (.seq a b) ts = .accepted rest) :
    ∃ k mid, run grammar k a ts = .accepted mid ∧ run grammar k b mid = .accepted rest := by
  cases n with
  | zero => simp [run] at h
  | succ n =>
    simp only [run] at h
    split at h
    · next mid ha => exact ⟨n, mid, ha, h⟩
    · next hne => exact absurd h (hne rest)

theorem run_ite_accepted {test a b : Form P}
    (h : run grammar n (.ite test a b) ts = .accepted rest) :
    ∃ k, ((∃ mid, run grammar k test ts = .accepted mid) ∧ run grammar k a ts = .accepted rest) ∨
      run grammar k b ts = .accepted rest := by
  cases n with
  | zero => simp [run] at h
  | succ n =>
    simp only [run] at h
    split at h
    · next mid ht => exact ⟨n, .inl ⟨⟨mid, ht⟩, h⟩⟩
    · exact ⟨n, .inr h⟩
    · cases h

theorem run_empty_accepted (h : run grammar n .empty ts = .accepted rest) : rest = ts := by
  cases n with
  | zero => simp [run] at h
  | succ n =>
    simp only [run, Outcome.accepted.injEq] at h
    exact h.symm

theorem run_refuse_not_accepted : run grammar n (.refuse : Form P) ts ≠ .accepted rest := by
  cases n <;> simp [run]

/-- A look ahead takes nothing, and its form is accepted there. -/
theorem run_look_accepted {f : Form P} (h : run grammar n (look f) ts = .accepted rest) :
    rest = ts ∧ ∃ k mid, run grammar k f ts = .accepted mid := by
  obtain ⟨k, ⟨⟨mid, ht⟩, he⟩ | hr⟩ := run_ite_accepted h
  · exact ⟨run_empty_accepted he, k, mid, ht⟩
  · exact absurd hr run_refuse_not_accepted

end Form

namespace RuntimePath

open Source

/-- The tokens, if there are any, begin with a separator or with an angle bracket. -/
def BeginArguments (ts : List Token) : Prop :=
  ∀ t ∈ ts.head?, ∃ joint, t = .punct ':' joint ∨ t = .punct '<' joint

/-- The path has generic arguments in no other way than in writing. -/
def HasArguments (path : RuntimePath) : Prop :=
  ∀ s ∈ path.first :: path.rest, BeginArguments s.arguments

theorem head?_of_punct {c : Char} {t : Token} (h : (TokenClass.punct c).admits t) :
    ∃ joint, t = .punct c joint := by
  cases t with
  | punct d j =>
    have he : c = d := by simpa [TokenClass.admits] using h
    exact ⟨j, by rw [he]⟩
  | _ => simp [TokenClass.admits] at h

theorem head?_of_joint {c : Char} {t : Token} (h : (TokenClass.joint c).admits t) :
    ∃ joint, t = .punct c joint := by
  cases t with
  | punct d j =>
    have he : c = d ∧ j := by simpa [TokenClass.admits] using h
    exact ⟨j, by rw [he.1]⟩
  | _ => simp [TokenClass.admits] at h

/-- Where generic arguments are taken, a separator or an angle bracket comes first. -/
theorem beginArguments_of_takeForm? {ts rest : List Token}
    (h : takeForm? (.seq (Form.optIf pathSep pathSep)
      (.seq (Form.look (Form.op "<")) genericArgs)) ts = some rest) : BeginArguments ts := by
  unfold takeForm? Form.rest? at h
  split at h
  · next hr =>
    obtain ⟨k, mid, ho, hl⟩ := Form.run_seq_accepted hr
    obtain ⟨k', ⟨⟨mid', hs⟩, -⟩ | he⟩ := Form.run_ite_accepted ho
    · obtain ⟨_, _, hj, -⟩ := Form.run_seq_accepted hs
      obtain ⟨t, rfl, ha⟩ := Form.run_token_accepted hj
      obtain ⟨joint, rfl⟩ := head?_of_joint ha
      intro u hu
      cases hu
      exact ⟨joint, .inl rfl⟩
    · have hm := Form.run_empty_accepted he
      subst hm
      obtain ⟨_, _, hlook, -⟩ := Form.run_seq_accepted hl
      obtain ⟨-, _, _, hp⟩ := Form.run_look_accepted hlook
      obtain ⟨t, rfl, ha⟩ := Form.run_token_accepted hp
      obtain ⟨joint, rfl⟩ := head?_of_punct ha
      intro u hu
      cases hu
      exact ⟨joint, .inr rfl⟩
  · cases h

/-- Only the spacing of the first token may change. -/
theorem beginArguments_respace {ts : List Token} (h : BeginArguments ts) :
    BeginArguments (respace ts) := by
  cases ts with
  | nil => simpa [respace] using h
  | cons t ts =>
    obtain ⟨joint, rfl | rfl⟩ := h t rfl <;>
      rcases ts with _ | ⟨_ | _ | _ | _ | _, ts⟩ <;>
      intro u hu <;>
      simp only [respace, List.head?_cons, Option.mem_def, Option.some.injEq] at hu <;>
      subst hu <;> simp

theorem beginArguments_take {ts : List Token} (h : BeginArguments ts) (n : Nat) :
    BeginArguments (ts.take n) := by
  intro t ht
  cases n with
  | zero => simp at ht
  | succ n =>
    cases ts with
    | nil => simp at ht
    | cons u ts => exact h t (by simpa using ht)

theorem beginArguments_segments? {fuel : Nat} {ts : List Token} {ss : List PathSegment}
    (h : segments? fuel ts = some ss) : ∀ s ∈ ss, BeginArguments s.arguments := by
  induction fuel generalizing ts ss with
  | zero => simp [segments?] at h
  | succ fuel ih =>
    have more : ∀ {id arguments ts ss}, BeginArguments arguments →
        segments?.more id arguments ts fuel = some ss → ∀ s ∈ ss, BeginArguments s.arguments := by
      intro id arguments ts ss ha hm s hs
      unfold segments?.more at hm
      split at hm
      · cases hm
        cases List.mem_singleton.mp hs
        exact ha
      · obtain ⟨ss', hss, rfl⟩ := Option.map_eq_some_iff.mp hm
        rcases List.mem_cons.mp hs with rfl | hs
        · exact ha
        · exact ih hss s hs
      · cases hm
    unfold segments? at h
    split at h
    · next fuel' id ts' hf =>
      cases hf
      split at h
      · next ht => exact more (beginArguments_respace (beginArguments_take
          (beginArguments_of_takeForm? ht) _)) h
      · exact more (fun t ht => by simp at ht) h
    · cases h

/-- Every path that is read has its arguments as they are written. -/
theorem hasArguments_of_parse? {text : String} {path : RuntimePath}
    (h : parse? text = some path) : path.HasArguments := by
  have build : ∀ {isAbsolute ss}, (∀ s ∈ ss, BeginArguments s.arguments) →
      ofTokens?.build isAbsolute ss = some path → path.HasArguments := by
    intro isAbsolute ss hs hb
    cases ss with
    | nil => cases hb
    | cons s ss =>
      cases hb
      exact hs
  obtain ⟨ts, -, ht⟩ := Option.bind_eq_some_iff.mp h
  unfold ofTokens? at ht
  split at ht
  · split at ht
    all_goals
      obtain ⟨ss, hss, hb⟩ := Option.bind_eq_some_iff.mp ht
      exact build (beginArguments_segments? hss) hb
  · cases ht

open Source in
/-- The path where none is configured can be read. -/
theorem parse?_defaultText : parse? defaultText = some default := by
  have hl : Token.lex? defaultText =
      some [.punct ':' true, .punct ':' false, .word (.plain "dbobj")] := by decide +kernel
  have hf : isForm typePath [.punct ':' true, .punct ':' false, .word (.plain "dbobj")] = true := by
    decide +kernel
  have ht : takeForm? (.seq (Form.optIf pathSep pathSep)
      (.seq (Form.look (Form.op "<")) genericArgs)) [] = none := by decide +kernel
  rw [parse?, hl, Option.bind_some, ofTokens?, if_pos hf]
  simp only [List.length_cons, segments?, ht, segments?.more, Option.bind_some]
  rfl

/-- The path of something in the runtime is a word only if a separator or an angle bracket
follows it. -/
theorem tokensOf_continues {path : RuntimePath} (h : path.HasArguments) (name : String)
    (names : List String) :
    (∃ ts, path.tokensOf (name :: names) = .punct ':' true :: ts) ∨
    ∃ id t ts, path.tokensOf (name :: names) = .word id :: t :: ts ∧
      ∃ joint, t = .punct ':' joint ∨ t = .punct '<' joint := by
  obtain ⟨isAbsolute, ⟨id, arguments⟩, rest⟩ := path
  cases isAbsolute with
  | true => exact .inl ⟨_, rfl⟩
  | false =>
    refine .inr ?_
    have hf : BeginArguments arguments := h _ (List.mem_cons_self ..)
    cases arguments with
    | cons t arguments =>
      exact ⟨id, t, _, rfl, hf t rfl⟩
    | nil =>
      cases rest with
      | nil => exact ⟨id, _, _, rfl, true, .inl rfl⟩
      | cons s rest => exact ⟨id, _, _, rfl, true, .inl rfl⟩

end RuntimePath

end TaggedRows
