import TaggedRows.Proofs.Source.Printing

/-!
# Typeset text

A formatter chooses where lines end and how far they are indented, and whether the last item of a
list has a comma. The tokens stay as they are.

- **Places** (`Edge`): what stands directly in front of a place in a text, as far as it bears on
  what may follow.
- **Texts** (`Token.Typeset`): the texts that show a sequence of tokens. It is put together
  from the texts of its parts (`Token.Typeset.append`).
- **Fixed texts** (`Token.typeset?`): a check for texts with all their commas.
- **Plain text** (`Token.isTypeset_printChars`): the plain text of tokens is one of them.
-/

namespace TaggedRows

/-- What stands directly in front of a place in a text. -/
inductive Edge where
  /-- Nothing that bears on what follows. -/
  | free
  /-- A word or a literal, from which the next one has to be set apart. -/
  | word
  /-- A joint character: the next token follows at once. -/
  | joint
  /-- The last item of a list, with a comma or without it: the list has to be closed. -/
  | last
  deriving DecidableEq, Repr

namespace Token

/-- What a token is for the one behind it. -/
def edge : Token → Edge
  | word _ => .word
  | literal _ => .word
  | punct _ true => .joint
  | _ => .free

/-- The token closes a list. -/
def closes : Token → Bool
  | closing _ => true
  | punct '>' _ => true
  | _ => false

end Token

namespace Edge

/-- The token may stand here. -/
def Admits : Edge → Token → Prop
  | word, t => t.edge ≠ word
  | last, t => t.closes = true
  | _, _ => True

instance (e : Edge) (t : Token) : Decidable (e.Admits t) := by
  cases e <;> unfold Admits <;> infer_instance

/-- The place behind a blank. -/
def blanked : Edge → Edge
  | word => free
  | e => e

/-- A list may end here. -/
def CanEnd (e : Edge) : Prop := e = free ∨ e = word

/-- What may follow at the second place may follow at the first one. -/
def Allows (e e' : Edge) : Prop := e = free ∨ e = e' ∨ e = word ∧ e' = last

instance (e : Edge) : Decidable e.CanEnd := inferInstanceAs (Decidable (_ ∨ _))

instance (e e' : Edge) : Decidable (e.Allows e') := inferInstanceAs (Decidable (_ ∨ _))

variable {e e' e'' : Edge} {t : Token}

theorem Allows.refl (e : Edge) : e.Allows e := .inr (.inl rfl)

theorem free_allows (e : Edge) : free.Allows e := .inl rfl

theorem free_admits (t : Token) : free.Admits t := trivial

theorem Allows.trans (h : e.Allows e') (h' : e'.Allows e'') : e.Allows e'' := by
  cases e <;> cases e' <;> cases e'' <;> revert h h' <;> decide

theorem Allows.ne_joint (h : e.Allows e') (he : e' ≠ joint) : e ≠ joint := by
  cases e <;> cases e' <;> revert h he <;> decide

theorem Allows.blanked (h : e.Allows e') (he : e' ≠ joint) : e.blanked.Allows e'.blanked := by
  cases e <;> cases e' <;> revert h he <;> decide

theorem Allows.canEnd (h : e.Allows e') (he : e'.CanEnd) : e.CanEnd := by
  cases e <;> cases e' <;> revert h he <;> decide

theorem blanked_allows (e : Edge) : e.blanked.Allows e := by
  cases e <;> decide

theorem blanked_ne_joint (h : e ≠ joint) : e.blanked ≠ joint := by
  cases e <;> revert h <;> decide

theorem blanked_blanked (e : Edge) : e.blanked.blanked = e.blanked := by
  cases e <;> rfl

theorem CanEnd.ne_joint (h : e.CanEnd) : e ≠ joint := by
  rintro rfl
  revert h
  decide

theorem CanEnd.allows_last (h : e.CanEnd) : e.Allows last := by
  rcases h with rfl | rfl <;> decide

theorem admits_of_closes (h : t.closes = true) (he : e ≠ joint) : e.Admits t := by
  cases e with
  | word =>
    rcases t with _ | ⟨_, _ | _⟩ | _ | _ | _
    case word => cases h
    case literal => cases h
    all_goals nofun
  | last => exact h
  | _ => trivial

theorem Allows.admits (h : e.Allows e') (ht : e'.Admits t) : e.Admits t := by
  rcases h with rfl | rfl | ⟨rfl, rfl⟩
  · trivial
  · exact ht
  · exact admits_of_closes ht nofun

end Edge

namespace Token

variable {e e' e'' f : Edge} {t : Token} {ts ts' : List Token} {cs cs' : List Char}

theorem edge_ne_last (t : Token) : t.edge ≠ .last := by
  rcases t with _ | ⟨_, _ | _⟩ | _ | _ | _ <;> nofun

/-! ## Texts -/

/-- The text shows the tokens: each with its spelling, and with blanks and line ends in between. A
list that is closed may have a comma behind its last item, where the line ends, or lack it. -/
inductive Typeset : Edge → List Token → List Char → Edge → Prop where
  | nil {e : Edge} : Typeset e [] [] e
  | token {e e' : Edge} {t : Token} {ts : List Token} {cs : List Char} (admits : e.Admits t)
      (later : Typeset t.edge ts cs e') : Typeset e (t :: ts) (t.chars ++ cs) e'
  | blank {e e' : Edge} {c : Char} {ts : List Token} {cs : List Char}
      (isBlank : c = ' ' ∨ c = '\n') (apart : e ≠ .joint) (later : Typeset e.blanked ts cs e') :
      Typeset e ts (c :: cs) e'
  | withComma {e e' : Edge} {ts : List Token} {cs : List Char} (canEnd : e.CanEnd)
      (later : Typeset .last ts cs e') : Typeset e ts (',' :: '\n' :: cs) e'
  | withoutComma {e e' : Edge} {ts : List Token} {cs : List Char} (canEnd : e.CanEnd)
      (later : Typeset .last ts cs e') : Typeset e (.punct ',' false :: ts) cs e'

/-- The text shows the tokens, and no list is left to be closed. -/
def IsTypeset (ts : List Token) (cs : List Char) : Prop :=
  ∃ e : Edge, e.CanEnd ∧ Typeset .free ts cs e

theorem Typeset.append (h : Typeset e ts cs e') (h' : Typeset e' ts' cs' e'') :
    Typeset e (ts ++ ts') (cs ++ cs') e'' := by
  induction h with
  | nil => exact h'
  | token admits _ ih =>
    rw [List.cons_append, List.append_assoc]
    exact .token admits (ih h')
  | blank isBlank apart _ ih => exact .blank isBlank apart (ih h')
  | withComma canEnd _ ih => exact .withComma canEnd (ih h')
  | withoutComma canEnd _ ih => exact .withoutComma canEnd (ih h')

/-- A text that shows the tokens shows them as well where more may follow. -/
theorem Typeset.of_allows (h : Typeset e' ts cs f) (he : e.Allows e') :
    ∃ g : Edge, g.Allows f ∧ Typeset e ts cs g := by
  induction h generalizing e with
  | nil => exact ⟨e, he, .nil⟩
  | token admits later _ => exact ⟨_, .refl _, .token (he.admits admits) later⟩
  | blank isBlank apart _ ih =>
    obtain ⟨g, hg, h⟩ := ih (he.blanked apart)
    exact ⟨g, hg, .blank isBlank (he.ne_joint apart) h⟩
  | withComma canEnd later _ => exact ⟨_, .refl _, .withComma (he.canEnd canEnd) later⟩
  | withoutComma canEnd later _ => exact ⟨_, .refl _, .withoutComma (he.canEnd canEnd) later⟩

theorem typeset_one (h : e.Admits t) : Typeset e [t] t.chars t.edge := by
  have hone : Typeset e [t] (t.chars ++ []) t.edge := .token h .nil
  rwa [List.append_nil] at hone

theorem typeset_lineEnd (h : e ≠ .joint) : Typeset e [] ['\n'] e.blanked :=
  .blank (.inr rfl) h .nil

/-- Blanks show no token. -/
theorem typeset_blanks (h : e ≠ .joint) (n : Nat) :
    Typeset e [] (List.replicate n ' ') (if n = 0 then e else e.blanked) := by
  induction n generalizing e with
  | zero => exact .nil
  | succ n ih =>
    have hlater := ih (Edge.blanked_ne_joint h)
    rw [Edge.blanked_blanked, ite_self] at hlater
    exact .blank (.inl rfl) h hlater

/-! ## Fixed texts -/

/-- Where a text ends that shows the tokens with their commas, on one line. -/
def typeset? (e : Edge) : List Token → List Char → Option Edge
  | [], [] => some e
  | [], [' '] => if e = .joint then none else some e.blanked
  | [], _ => none
  | t :: ts, ' ' :: cs =>
    if e ≠ .joint ∧ e.blanked.Admits t ∧ t.chars <+: cs then
      typeset? t.edge ts (cs.drop t.chars.length)
    else none
  | t :: ts, cs =>
    if e.Admits t ∧ t.chars <+: cs then typeset? t.edge ts (cs.drop t.chars.length) else none

theorem typeset_of_typeset? (h : typeset? e ts cs = some e') : Typeset e ts cs e' := by
  have hdrop : ∀ {t : Token} {cs : List Char}, t.chars <+: cs →
      t.chars ++ cs.drop t.chars.length = cs := List.prefix_iff_eq_append.mp
  fun_induction typeset? e ts cs with
  | case1 e => exact Option.some.inj h ▸ .nil
  | case2 => cases h
  | case3 e hjoint => exact Option.some.inj h ▸ .blank (.inl rfl) hjoint .nil
  | case4 => cases h
  | case5 e t ts cs hfits ih =>
    obtain ⟨hjoint, hadmits, hprefix⟩ := hfits
    have htoken := Typeset.token hadmits (ih h)
    rw [hdrop hprefix] at htoken
    exact .blank (.inl rfl) hjoint htoken
  | case6 => cases h
  | case7 e t ts cs _ hfits ih =>
    have htoken := Typeset.token hfits.1 (ih h)
    rwa [hdrop hfits.2] at htoken
  | case8 => cases h

/-! ## Plain text -/

/-- The place behind a sequence of tokens. -/
def edgeAfter (e : Edge) (ts : List Token) : Edge := ts.foldl (fun _ t => t.edge) e

theorem edgeAfter_append (e : Edge) (ts ts' : List Token) :
    edgeAfter e (ts ++ ts') = edgeAfter (edgeAfter e ts) ts' := List.foldl_append

theorem edgeAfter_ne_last (h : e ≠ .last) (ts : List Token) : edgeAfter e ts ≠ .last := by
  induction ts generalizing e with
  | nil => exact h
  | cons t ts ih => exact ih (edge_ne_last t)

/-- Tokens that the plain text does not set apart may stand side by side. -/
theorem admits_of_gap {u : Token} (h : t.gap u = false) : t.edge.Admits u := by
  obtain ⟨c, rfl⟩ | ⟨d, rfl⟩ | ⟨d, rfl, -⟩ := gap_eq_false h
  · trivial
  · trivial
  · cases hedge : t.edge with
    | last => exact absurd hedge (edge_ne_last t)
    | word => nofun
    | _ => trivial

theorem edge_of_gap {u : Token} (h : t.gap u = true) : t.edge = .free ∨ t.edge = .word := by
  rcases t with _ | ⟨_, _ | _⟩ | _ | _ | _
  case word => exact .inr rfl
  case literal => exact .inr rfl
  case punct.true => cases h
  all_goals exact .inl rfl

/-- The plain text shows the tokens. -/
theorem typeset_printChars (ht : e.Admits t) (ts : List Token) :
    Typeset e (t :: ts) (printChars (t :: ts)) (edgeAfter e (t :: ts)) := by
  induction ts generalizing e t with
  | nil => exact typeset_one ht
  | cons u ts ih =>
    rw [printChars]
    cases hgap : t.gap u with
    | false => exact .token ht (ih (admits_of_gap hgap))
    | true =>
      have hu : t.edge.blanked.Admits u := by
        rcases edge_of_gap hgap with he | he <;> rw [he] <;> trivial
      have hjoint : t.edge ≠ .joint := by
        rcases edge_of_gap hgap with he | he <;> rw [he] <;> decide
      exact .token ht (.blank (.inl rfl) hjoint (ih hu))

theorem isTypeset_printChars (h : edgeAfter .free ts ≠ .joint) : IsTypeset ts (printChars ts) := by
  refine ⟨edgeAfter .free ts, ?_, ?_⟩
  · have hlast := edgeAfter_ne_last (e := .free) nofun ts
    cases hedge : edgeAfter .free ts with
    | free => exact .inl rfl
    | word => exact .inr rfl
    | joint => exact absurd hedge h
    | last => exact absurd hedge hlast
  · cases ts with
    | nil => exact .nil
    | cons t ts => exact typeset_printChars (Edge.free_admits t) ts

end Token

end TaggedRows
