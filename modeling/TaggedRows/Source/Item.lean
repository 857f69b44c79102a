import TaggedRows.Source.Lexer
import TaggedRows.Source.Grammar.Items

/-!
# Items of a source file

The items of a file as a tree: structs with their fields, inline modules with their items, and
everything else. A text is read in three steps: into tokens, against the grammar as a whole, and
then into the tree by cutting the accepted tokens into their items. Only the places where structs
are declared matter, so bodies and macros are no further looked into.
-/

namespace TaggedRows.Source

/-- What stands between the brackets of an attribute. -/
structure Attribute where
  content : List Token
  deriving DecidableEq, Repr

structure FieldDecl where
  attributes : List Attribute
  ident : Ident
  /-- The tokens of the type. -/
  type : List Token
  deriving DecidableEq, Repr

inductive Fields where
  | named (fields : List FieldDecl)
  /-- Tuple fields, or no fields at all. -/
  | positional
  deriving DecidableEq, Repr

structure StructDecl where
  ident : Ident
  /-- The struct has at least one generic parameter. -/
  isGeneric : Bool
  fields : Fields
  deriving DecidableEq, Repr

inductive Item where
  | struct (decl : StructDecl)
  /-- A module with its items in place. -/
  | module (ident : Ident) (items : List Item)
  | other

/-! ## Cutting accepted tokens -/

/-- The tokens that a form takes, and the rest. -/
def split? (f : SForm) (ts : List Token) : Option (List Token × List Token) :=
  (takeForm? f ts).map fun rest => (ts.take (ts.length - rest.length), rest)

/-- Cuts tokens into pieces of one form; `sep` says whether a comma follows each. -/
def pieces (f : SForm) (sep : Bool) : Nat → List Token → Option (List (List Token))
  | _, [] => some []
  | 0, _ :: _ => none
  | fuel + 1, ts =>
    (split? f ts).bind fun (piece, rest) =>
      let rest := if sep then rest.drop 1 else rest
      (pieces f sep fuel rest).map (piece :: ·)

/-- The tokens between the delimiters around a sequence. -/
def inside (ts : List Token) : List Token := (ts.drop 1).dropLast

/-- The outer attributes that a sequence begins with, and the rest. -/
def takeAttributes : Nat → List Token → List Attribute × List Token
  | fuel + 1, .punct '#' j :: ts =>
    match split? delimited ts with
    | some (content, rest) =>
      let (as, rest) := takeAttributes fuel rest
      (⟨inside content⟩ :: as, rest)
    | none => ([], .punct '#' j :: ts)
  | _, ts => ([], ts)

/-- Drops the visibility that a sequence begins with. -/
def dropVisibility (ts : List Token) : List Token :=
  (takeForm? visibility ts).getD ts

/-- Reads the tokens of one named field. -/
def FieldDecl.ofTokens? (ts : List Token) : Option FieldDecl :=
  let (as, ts) := takeAttributes ts.length ts
  match dropVisibility ts with
  | .word id :: .punct ':' _ :: type => some ⟨as, id, type⟩
  | _ => none

/-- Reads a struct after the word `struct`. -/
def StructDecl.ofTokens? : List Token → Option StructDecl
  | .word id :: ts => do
    let (params, ts) ← split? generics ts
    let ts ← if ts.head? = some (.opening .paren) then some ts else takeForm? whereClause ts
    let fields ← match ts with
      | .opening .brace :: _ =>
        let body := inside ts
        ((← pieces (.phrase .field) true body.length body).mapM FieldDecl.ofTokens?).map .named
      | _ => some .positional
    return ⟨id, 2 < params.length, fields⟩
  | _ => none

/-- Reads the tokens of one item. The bound on the depth of modules is the number of tokens. -/
def Item.ofTokens : Nat → List Token → Item
  | 0, _ => .other
  | fuel + 1, ts =>
    match dropVisibility (takeAttributes ts.length ts).2 with
    | .word ⟨false, "struct"⟩ :: ts => ((StructDecl.ofTokens? ts).map Item.struct).getD .other
    | .word ⟨false, "mod"⟩ :: .word id :: ts => module id ts fuel
    | .word ⟨false, "unsafe"⟩ :: .word ⟨false, "mod"⟩ :: .word id :: ts => module id ts fuel
    | _ => .other
where
  module (id : Ident) (ts : List Token) (fuel : Nat) : Item :=
    match ts with
    | .opening .brace :: _ =>
      let body := inside ts
      let body := (takeForm? innerAttributes body).getD body
      .module id (((pieces (.phrase .item) false body.length body).getD []).map (ofTokens fuel))
    | _ => .other

/-! ## Files -/

/-- Skips blanks and plain comments. -/
def skipBlanks : Nat → List Char → List Char
  | 0, cs => cs
  | fuel + 1, cs =>
    match Lexer.blank cs with
    | .skipped rest => skipBlanks fuel rest
    | _ => cs

/-- The text without a first line that names an interpreter. A first line `#![` is an attribute. -/
def dropShebang (cs : List Char) : List Char :=
  match cs with
  | '#' :: '!' :: rest =>
    if (skipBlanks rest.length rest).head? = some '[' then cs else cs.dropWhile (· ≠ '\n')
  | _ => cs

/-- The text without a byte order mark at its start. -/
def dropMark (cs : List Char) : List Char :=
  if cs.head? = some '\ufeff' then cs.tail else cs

/-- Reads the tokens of a file as items. -/
def itemsOfTokens? (ts : List Token) : Option (List Item) :=
  if isForm file ts then
    (takeForm? innerAttributes ts).bind fun body =>
      (pieces (.phrase .item) false body.length body).map fun chunks =>
        chunks.map (Item.ofTokens ts.length)
  else none

/-- Reads a source file. -/
def parseFile? (text : String) : Option (List Item) :=
  (Token.lexChars? (dropShebang (dropMark text.toList))).bind itemsOfTokens?

/-- An item of a single kind, with attributes and a visibility. -/
def marked (f : SForm) : SForm := Form.list [outerAttributes, visibility, f]

/-- Reads tokens that are exactly one struct. -/
def structOfTokens? (ts : List Token) : Option StructDecl :=
  if isForm (marked structItem) ts then
    match dropVisibility (takeAttributes ts.length ts).2 with
    | _ :: rest => StructDecl.ofTokens? rest
    | [] => none
  else none

end TaggedRows.Source
