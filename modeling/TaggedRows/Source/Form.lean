import TaggedRows.Source.Token
import TaggedRows.Text.Split

/-!
# Predictive grammars

A *form* describes token sequences. It is predictive: a choice is made by looking ahead, and a
branch once taken is not left again, so a form accepts at most one beginning of a sequence.
A grammar gives a form to each of its phrases, and forms refer to phrases by name.

`Form.run` follows a grammar with a bound on the depth of the recursion. Its outcome tells a
refusal from an exhausted bound; a larger bound never changes an accepted or refused sequence
(`run_mono`).
-/

namespace TaggedRows

/-- Classes of single tokens. -/
inductive TokenClass where
  /-- The plain word with this spelling. -/
  | kw (spelling : String)
  /-- A word that may stand as a name. -/
  | name
  /-- Any word, keywords included. -/
  | word
  | punct (c : Char)
  /-- A punctuation character that the next token continues. -/
  | joint (c : Char)
  | literal
  | stringLiteral
  /-- A number that counts fields, or several of them with points between. -/
  | index
  | opening (d : Delimiter)
  | closing (d : Delimiter)
  | anyOpening
  | anyClosing
  | any
  deriving DecidableEq, Repr

namespace TokenClass

/-- The number has decimal digits around its points and nothing else. -/
def isIndex (text : String) : Bool :=
  (Text.pieces '.' text.toList).all fun piece =>
    piece ≠ [] && piece.all fun c => c.isDigit || c = '_'

/-- The token is of the class. -/
def admits : TokenClass → Token → Bool
  | .kw spelling, .word id => !id.raw && id.name == spelling
  | .name, .word id => !id.isKeyword
  | .word, .word _ => true
  | .punct c, .punct d _ => c == d
  | .joint c, .punct d j => c == d && j
  | .literal, .literal _ => true
  | .stringLiteral, .literal ⟨.string _, _⟩ => true
  | .index, .literal ⟨.number, text⟩ => isIndex text
  | .opening d, .opening e => d == e
  | .closing d, .closing e => d == e
  | .anyOpening, .opening _ => true
  | .anyClosing, .closing _ => true
  | .any, _ => true
  | _, _ => false

end TokenClass

/-- Forms over the phrases `P` of a grammar. -/
inductive Form (P : Type) where
  /-- No token at all. -/
  | empty
  | refuse
  | token (c : TokenClass)
  | seq (a b : Form P)
  /-- Takes the first branch when the test accepts here, and else the second. -/
  | ite (test a b : Form P)
  /-- Repeats the body as long as the test accepts. -/
  | loop (test body : Form P)
  | phrase (p : P)

/-- How following a form ends. -/
inductive Outcome where
  | accepted (rest : List Token)
  | refused
  | exhausted
  deriving DecidableEq, Repr

namespace Form

variable {P : Type}

/-- Follows a form, with a bound on the depth. -/
def run (grammar : P → Form P) : Nat → Form P → List Token → Outcome
  | 0, _, _ => .exhausted
  | _ + 1, .empty, ts => .accepted ts
  | _ + 1, .refuse, _ => .refused
  | _ + 1, .token _, [] => .refused
  | _ + 1, .token c, t :: ts => if c.admits t then .accepted ts else .refused
  | n + 1, .seq a b, ts =>
    match run grammar n a ts with
    | .accepted rest => run grammar n b rest
    | o => o
  | n + 1, .ite test a b, ts =>
    match run grammar n test ts with
    | .accepted _ => run grammar n a ts
    | .refused => run grammar n b ts
    | .exhausted => .exhausted
  | n + 1, .loop test body, ts =>
    match run grammar n test ts with
    | .accepted _ =>
      match run grammar n body ts with
      | .accepted rest => run grammar n (.loop test body) rest
      | o => o
    | .refused => .accepted ts
    | .exhausted => .exhausted
  | n + 1, .phrase p, ts => run grammar n (grammar p) ts

/-- One step more of depth keeps every finished outcome. -/
theorem run_succ (grammar : P → Form P) {n : Nat} {f : Form P} {ts : List Token}
    (h : run grammar n f ts ≠ .exhausted) : run grammar (n + 1) f ts = run grammar n f ts := by
  induction n generalizing f ts with
  | zero => simp [run] at h
  | succ n ih =>
    cases f with
    | empty => simp [run]
    | refuse => simp [run]
    | token c => cases ts <;> simp [run]
    | seq a b =>
      have ha : run grammar n a ts ≠ .exhausted := by
        intro he; simp [run, he] at h
      rw [run, ih ha]
      conv => rhs; rw [run]
      split
      · next rest hr =>
        have hb : run grammar n b rest ≠ .exhausted := by
          intro he; simp [run, hr, he] at h
        exact ih hb
      · rfl
    | ite test a b =>
      have ht : run grammar n test ts ≠ .exhausted := by
        intro he; simp [run, he] at h
      rw [run, ih ht]
      conv => rhs; rw [run]
      split
      · next rest hr => exact ih (by intro he; simp [run, hr, he] at h)
      · next hr => exact ih (by intro he; simp [run, hr, he] at h)
      · rfl
    | loop test body =>
      have ht : run grammar n test ts ≠ .exhausted := by
        intro he; simp [run, he] at h
      rw [run, ih ht]
      conv => rhs; rw [run]
      split
      · next rest hr =>
        have hb : run grammar n body ts ≠ .exhausted := by
          intro he; simp [run, hr, he] at h
        rw [ih hb]
        split
        · next rest' hr' => exact ih (by intro he; simp [run, hr, hr', he] at h)
        · rfl
      · rfl
      · rfl
    | phrase p =>
      rw [run]
      conv => rhs; rw [run]
      exact ih (by intro he; simp [run, he] at h)

/-- More depth keeps every finished outcome. -/
theorem run_mono (grammar : P → Form P) {n m : Nat} {f : Form P} {ts : List Token} (hnm : n ≤ m)
    (h : run grammar n f ts ≠ .exhausted) : run grammar m f ts = run grammar n f ts := by
  induction hnm with
  | refl => rfl
  | step _ ih => rw [run_succ grammar (by rw [ih]; exact h), ih]

/-! ## Derived forms -/

/-- The forms in this order. -/
def list : List (Form P) → Form P
  | [] => .empty
  | [f] => f
  | f :: fs => .seq f (list fs)

/-- A plain word with the given spelling. -/
def kw (name : String) : Form P := .token (.kw name)

/-- An operator: its characters one after another, all but the last joint. -/
def op (text : String) : Form P :=
  go text.toList
where
  go : List Char → Form P
    | [] => .empty
    | [c] => .token (.punct c)
    | c :: d :: cs => .seq (.token (.joint c)) (go (d :: cs))

/-- Refuses where the form accepts, and takes nothing. -/
def never (f : Form P) : Form P := .ite f .refuse .empty

/-- Accepts where the form accepts, and takes nothing. -/
def look (f : Form P) : Form P := .ite f .empty .refuse

/-- A test that takes the first of the forms that accepts. -/
def oneOf : List (Form P) → Form P
  | [] => .refuse
  | [f] => f
  | f :: fs => .ite f f (oneOf fs)

/-- The first branch whose test accepts. -/
def cases (otherwise : Form P) : List (Form P × Form P) → Form P
  | [] => otherwise
  | (test, f) :: rest => .ite test f (cases otherwise rest)

/-- The form where it begins like its test, and else nothing. -/
def opt (f : Form P) : Form P := .ite f f .empty

/-- What the test announces, and else nothing. -/
def optIf (test f : Form P) : Form P := .ite test f .empty

/-- A form between delimiters. -/
def group (d : Delimiter) (f : Form P) : Form P :=
  .seq (.token (.opening d)) (.seq f (.token (.closing d)))

/-- Items up to the closing delimiter, each but the last followed by a comma. -/
def commaList (item : Form P) : Form P :=
  .loop (never (.token .anyClosing))
    (.seq item (.ite (.token .anyClosing) .empty (op ",")))

/-- A bound on the depth that suffices for the grammars here: it grows with the length. -/
def depthFor (ts : List Token) : Nat := 256 * (ts.length + 4)

/-- Follows a form as far as it goes; the rest of an accepted sequence. -/
def rest? (grammar : P → Form P) (f : Form P) (ts : List Token) : Option (List Token) :=
  match run grammar (depthFor ts) f ts with
  | .accepted rest => some rest
  | _ => none

/-- The whole sequence has the form. -/
def accepts (grammar : P → Form P) (f : Form P) (ts : List Token) : Bool :=
  rest? grammar f ts == some []

end Form

end TaggedRows
