import TaggedRows.Layout
import TaggedRows.Proofs.Source.Typesetting

/-!
# Layouts show their tokens however they are written

Whatever the widths, a layout is written as its texts in their order, and each of its breaks either
leaves its spaces or ends the line.

- **Ways of writing** (`Layout.Writes`, `Layout.writes_renderOn`): rendering is one of them.
- **Tokens** (`Layout.Typesets`): a layout shows a sequence of tokens if each of its texts does. A
  lemma for each way of building layouts puts the sequence together.
- **Rendering** (`Layout.Typesets.isTypeset_render`).
-/

namespace TaggedRows

namespace Layout

open Token (Typeset IsTypeset)

/-! ## Ways of writing -/

/-- The layout can be written as the text where `n` spaces are pending, and leaves `m`. -/
inductive Writes : Nat → Layout → List Char → Nat → Prop where
  | nil {n : Nat} : Writes n .nil [] n
  | text {n m : Nat} {s cs : List Char} {rest : Layout} (later : Writes 0 rest cs m) :
      Writes n (.text s rest) (List.replicate n ' ' ++ s ++ cs) m
  | goesOn {n m : Nat} {b : Break} {cs : List Char} {rest : Layout}
      (later : Writes (n + b.blanks) rest cs m) : Writes n (.brk b rest) cs m
  | endsLine {n k m : Nat} {b : Break} {cs : List Char} {rest : Layout}
      (later : Writes k rest cs m) :
      Writes n (.brk b rest)
        ((if b.before = [] then [] else List.replicate n ' ' ++ b.before) ++ '\n' :: cs) m
  | box {n k m : Nat} {indent : Int} {kind : BoxKind} {body rest : Layout} {cs cs' : List Char}
      (inner : Writes n body cs k) (later : Writes k rest cs' m) :
      Writes n (.box indent kind body rest) (cs ++ cs') m

/-- Rendering is one way of writing. -/
theorem writes_renderOn (l : Layout) (mode : Mode) (after : Nat) (page : Page) :
    ∃ cs, Writes page.pending l cs (l.renderOn mode after page).pending ∧
      (l.renderOn mode after page).written.reverse = page.written.reverse ++ cs := by
  induction l generalizing mode after page with
  | nil => exact ⟨[], .nil, (List.append_nil _).symm⟩
  | text s rest ih =>
    obtain ⟨cs, hwrites, hwritten⟩ := ih mode after (page.put s)
    refine ⟨_, .text hwrites, ?_⟩
    rw [renderOn, hwritten]
    simp [Page.put]
  | brk b rest ih =>
    rw [renderOn]
    split
    · obtain ⟨cs, hwrites, hwritten⟩ := ih mode after (page.skip b.blanks)
      exact ⟨cs, .goesOn hwrites, hwritten⟩
    · obtain ⟨cs, hwrites, hwritten⟩ := ih mode after (page.endLine b)
      refine ⟨_, .endsLine hwrites, ?_⟩
      rw [hwritten]
      by_cases hb : b.before = [] <;> simp [Page.endLine, Page.put, hb]
  | box indent kind body rest ihBody ihRest =>
    rw [renderOn]
    dsimp only
    split
    · obtain ⟨cs, hbody, hinner⟩ := ihBody .flat (rest.reach after) page
      obtain ⟨cs', hrest, hwritten⟩ :=
        ihRest mode after (body.renderOn .flat (rest.reach after) page)
      exact ⟨cs ++ cs', .box hbody hrest, by rw [hwritten, hinner, List.append_assoc]⟩
    · obtain ⟨cs, hbody, hinner⟩ :=
        ihBody (.broken kind) (rest.reach after) { page with indent := page.indent + indent }
      obtain ⟨cs', hrest, hwritten⟩ := ihRest mode after
        { body.renderOn (.broken kind) (rest.reach after)
            { page with indent := page.indent + indent } with indent := page.indent }
      exact ⟨cs ++ cs', .box hbody hrest, by rw [hwritten, hinner, List.append_assoc]⟩

/-- Two layouts are written one after the other. -/
theorem writes_append {l l' : Layout} {n m : Nat} {cs : List Char} (h : Writes n (l ++ l') cs m) :
    ∃ k bs bs', cs = bs ++ bs' ∧ Writes n l bs k ∧ Writes k l' bs' m := by
  induction l generalizing n cs with
  | nil => exact ⟨n, [], cs, rfl, .nil, h⟩
  | text s rest ih =>
    cases h with
    | text later =>
      obtain ⟨k, bs, bs', rfl, hl, hl'⟩ := ih later
      exact ⟨k, _, bs', (List.append_assoc _ _ _).symm, .text hl, hl'⟩
  | brk b rest ih =>
    cases h with
    | goesOn later =>
      obtain ⟨k, bs, bs', rfl, hl, hl'⟩ := ih later
      exact ⟨k, bs, bs', rfl, .goesOn hl, hl'⟩
    | endsLine later =>
      obtain ⟨k, bs, bs', rfl, hl, hl'⟩ := ih later
      exact ⟨k, _, bs', by rw [List.append_assoc, List.cons_append], .endsLine hl, hl'⟩
  | box indent kind body rest _ ih =>
    cases h with
    | box inner later =>
      obtain ⟨k, bs, bs', rfl, hl, hl'⟩ := ih later
      exact ⟨k, _, bs', (List.append_assoc _ _ _).symm, .box inner hl, hl'⟩

/-! ## Tokens -/

/-- Behind the first place, with spaces pending, all may follow that may at the second one. -/
def Reaches (e : Edge) : Nat → Edge → Prop
  | 0, e' => e.Allows e'
  | _ + 1, e' => e ≠ .joint ∧ e.blanked.Allows e'

/-- However the layout is written, its text shows the tokens. -/
def Typesets (e : Edge) (l : Layout) (ts : List Token) (e' : Edge) : Prop :=
  ∀ n m cs, Writes n l cs m → ∀ f, Reaches f n e → ∃ f', Reaches f' m e' ∧ Typeset f ts cs f'

variable {e e' e'' f f' : Edge} {l l' : Layout} {ls : List Layout} {ts ts' : List Token} {n : Nat}

theorem Reaches.trans (h : Reaches f n e) (he : e.Allows e') : Reaches f n e' := by
  cases n with
  | zero => exact Edge.Allows.trans h he
  | succ n => exact ⟨h.1, h.2.trans he⟩

/-- Where a line may end, it may end in front of pending spaces. -/
theorem Reaches.apart (h : Reaches f n e) (he : e ≠ .joint) :
    f ≠ .joint ∧ f.blanked.Allows e.blanked := by
  cases n with
  | zero => exact ⟨Edge.Allows.ne_joint h he, Edge.Allows.blanked h he⟩
  | succ n =>
    have hblanked := h.2.blanked he
    rw [Edge.blanked_blanked] at hblanked
    exact ⟨h.1, hblanked⟩

/-- The pending spaces are written. -/
theorem Reaches.typeset_blanks (h : Reaches f n e) :
    ∃ f', f'.Allows e ∧ Typeset f [] (List.replicate n ' ') f' := by
  cases n with
  | zero => exact ⟨f, h, .nil⟩
  | succ n => exact ⟨f.blanked, h.2, Token.typeset_blanks h.1 (n + 1)⟩

/-- More spaces may be pending where a line may end. -/
theorem Reaches.add (h : Reaches f n e) (he : e ≠ .joint) (k : Nat) :
    Reaches f (n + k) (if k = 0 then e else e.blanked) := by
  cases k with
  | zero => exact h
  | succ k => exact h.apart he

/-- Behind the end of a line it does not matter how many spaces are pending. -/
theorem reaches_blanked (h : f.blanked.Allows e) (hf : f ≠ .joint) (n : Nat) :
    Reaches f.blanked n e := by
  cases n with
  | zero => exact h
  | succ n => exact ⟨Edge.blanked_ne_joint hf, by rwa [Edge.blanked_blanked]⟩

theorem Reaches.canEnd (h : Reaches f n e) (he : e.CanEnd) : f.CanEnd := by
  cases n with
  | zero => exact Edge.Allows.canEnd h he
  | succ n =>
    have hblanked := h.2.canEnd he
    cases f <;> revert hblanked <;> decide

theorem reaches_last (n : Nat) : Reaches .last n .last := by
  cases n with
  | zero => exact .refl _
  | succ n => exact ⟨nofun, .refl _⟩

namespace Typesets

theorem mono (h : Typesets e l ts e') (hf : f.Allows e) (hf' : e'.Allows f') :
    Typesets f l ts f' := by
  intro n m cs hwrites g hg
  obtain ⟨g', hg', htext⟩ := h n m cs hwrites g (hg.trans hf)
  exact ⟨g', hg'.trans hf', htext⟩

theorem cast (h : Typesets e l ts e') (hts : ts = ts') : Typesets e l ts' e' := hts ▸ h

theorem append (h : Typesets e l ts e') (h' : Typesets e' l' ts' e'') :
    Typesets e (l ++ l') (ts ++ ts') e'' := by
  intro n m cs hwrites f hf
  obtain ⟨k, bs, bs', rfl, hl, hl'⟩ := writes_append hwrites
  obtain ⟨g, hg, htext⟩ := h n k bs hl f hf
  obtain ⟨g', hg', htext'⟩ := h' k m bs' hl' g hg
  exact ⟨g', hg', htext.append htext'⟩

theorem nil : Typesets e nil [] e := by
  rintro n m cs ⟨⟩ f hf
  exact ⟨f, hf, .nil⟩

theorem text {s : List Char} (h : Typeset e ts s e') : Typesets e (.text s .nil) ts e' := by
  rintro n m cs (_ | ⟨⟨⟩⟩) f hf
  obtain ⟨g, hg, hblanks⟩ := hf.typeset_blanks
  obtain ⟨g', hg', htext⟩ := h.of_allows hg
  rw [List.append_nil]
  exact ⟨g', hg', hblanks.append htext⟩

theorem word {s : String} (h : Typeset e ts s.toList e') : Typesets e (word s) ts e' := text h

/-- A break shows no token. -/
theorem brk {b : Break} (hb : b.before = []) (he : e ≠ .joint) :
    Typesets e (.brk b .nil) [] (if b.blanks = 0 then e else e.blanked) := by
  intro n m cs hwrites f hf
  cases hwrites with
  | goesOn later =>
    cases later
    exact ⟨f, hf.add he b.blanks, .nil⟩
  | endsLine later =>
    cases later
    rw [if_pos hb]
    obtain ⟨hjoint, hallows⟩ := hf.apart he
    refine ⟨f.blanked, reaches_blanked ?_ hjoint m, Token.typeset_lineEnd hjoint⟩
    split
    · exact hallows.trans e.blanked_allows
    · exact hallows

theorem space (he : e ≠ .joint) : Typesets e space [] e.blanked := brk rfl he

theorem cut (he : e ≠ .joint) : Typesets e cut [] e := brk rfl he

theorem cutBack (he : e ≠ .joint) (offset : Int) : Typesets e (cutBack offset) [] e := brk rfl he

theorem seam (he : e ≠ .joint) : Typesets e seam [] e := brk rfl he

theorem newline (he : e ≠ .joint) (offset : Int) : Typesets e (newline offset) [] e := brk rfl he

/-- The comma behind the last item is written where the line ends there, be it a token or not. -/
theorem lastComma (he : e.CanEnd) (offset : Int) (hts : ts = [] ∨ ts = Token.op ",") :
    Typesets e (lastComma offset) ts .last := by
  intro n m cs hwrites f hf
  cases hwrites with
  | goesOn later =>
    cases later
    rcases hts with rfl | rfl
    · exact ⟨f, hf.trans he.allows_last, .nil⟩
    · exact ⟨.last, reaches_last n, .withoutComma (hf.canEnd he) .nil⟩
  | endsLine later =>
    cases later
    obtain ⟨g, hg, hblanks⟩ := hf.typeset_blanks
    have hg := hg.canEnd he
    rw [if_neg nofun, List.append_assoc]
    rcases hts with rfl | rfl
    · exact ⟨.last, reaches_last m, hblanks.append (.withComma hg .nil)⟩
    · have hcomma : g.Admits (.punct ',' false) := by
        rcases hg with rfl | rfl <;> decide
      exact ⟨.free, reaches_blanked (f := .free) (Edge.free_allows _) nofun m,
        hblanks.append (.token hcomma (.blank (.inr rfl) nofun .nil))⟩

theorem box {indent : Int} {kind : BoxKind} (h : Typesets e l ts e') :
    Typesets e (.box indent kind l .nil) ts e' := by
  rintro n m cs (_ | _ | _ | _ | ⟨inner, ⟨⟩⟩) f hf
  rw [List.append_nil]
  exact h n _ _ inner f hf

theorem concat_one (h : Typesets e l ts e') : Typesets e (concat [l]) ts e' :=
  (h.append nil).cast (List.append_nil ts)

theorem concat_cons (h : Typesets e l ts e') (h' : Typesets e' (concat ls) ts' e'') :
    Typesets e (concat (l :: ls)) (ts ++ ts') e'' := h.append h'

/-- Items show their tokens with commas between them, and perhaps one behind them. -/
theorem commaItems {items : List (List Token)}
    (h : List.Forall₂ (fun l ts => Typesets .free l ts .word) ls items)
    (hts : ts = [] ∨ ls ≠ [] ∧ ts = Token.op ",") :
    Typesets .free (commaItems ls) (Token.commas items ++ ts) .last := by
  have hword : Edge.CanEnd .word := .inr rfl
  induction h with
  | nil =>
    obtain rfl | ⟨hne, -⟩ := hts
    · exact nil.mono (.refl _) (Edge.free_allows _)
    · exact absurd rfl hne
  | @cons l items₁ ls items hl hls ih =>
    cases hls with
    | nil => exact hl.append (lastComma hword _ (hts.imp_right And.right))
    | cons hl' hls =>
      have hcomma : Typesets .word (Layout.word ",") (Token.op ",") .free := by
        exact word (Token.typeset_of_typeset? (by decide +kernel))
      have hrest := ih (hts.imp_right fun hc => ⟨List.cons_ne_nil _ _, hc.2⟩)
      exact (((hl.append hcomma).append (space nofun)).append hrest).cast (by simp [Token.commas])

/-- Brackets show their items between those that they are written with. -/
theorem bracketed {opening closing : String} {os bs : List Token} {items : List (List Token)}
    (ho : Typeset e os opening.toList .free) (hc : Typeset .last bs closing.toList e')
    (h : List.Forall₂ (fun l ts => Typesets .free l ts .word) ls items) :
    Typesets e (bracketed opening closing ls) (os ++ Token.commas items ++ bs) e' := by
  have hbetween : Typesets .free (if ls.isEmpty then Layout.nil
      else consistent step [Layout.cut, Layout.commaItems ls]) (Token.commas items) .last := by
    cases h with
    | nil => exact nil.mono (.refl _) (Edge.free_allows _)
    | cons hl hls =>
      have hitems := commaItems (.cons hl hls) (.inl rfl)
      rw [List.append_nil] at hitems
      exact box (concat_cons (cut (by decide)) (concat_one hitems))
  exact ((word ho).append hbetween).append (word hc)

/-- What is rendered shows the tokens of the layout. -/
theorem isTypeset_render (h : Typesets .free l ts e) (he : e.CanEnd) :
    IsTypeset ts l.render.toList := by
  obtain ⟨cs, hwrites, hwritten⟩ := writes_renderOn l (.broken .flowing) 0 .empty
  obtain ⟨f, hf, htext⟩ := h _ _ _ hwrites .free (Edge.Allows.refl _)
  refine ⟨f, hf.canEnd he, ?_⟩
  rw [render, String.toList_ofList, hwritten]
  exact htext

end Typesets

end Layout

end TaggedRows
