/-!
# Identifiers

An identifier is written plainly or with the raw prefix `r#`, which lets a keyword stand as a name.
Only the plain spelling of a keyword is a keyword.
-/

namespace TaggedRows

/-- An identifier: its name, and whether it is written with the raw prefix. -/
structure Ident where
  raw : Bool
  name : String
  deriving DecidableEq, Repr

namespace Ident

/-- The identifier without the raw prefix. -/
def plain (name : String) : Ident := ⟨false, name⟩

/-- The spelling, raw prefix included. -/
def text (id : Ident) : String :=
  if id.raw then "r#" ++ id.name else id.name

/-- Reads a spelling; `r#` at its start is the raw prefix. -/
def ofText (text : String) : Ident :=
  match text.toList with
  | 'r' :: '#' :: cs => ⟨true, String.ofList cs⟩
  | _ => ⟨false, text⟩

/-- Names that no plain identifier may have. -/
def keywords : List String :=
  ["_", "abstract", "as", "async", "await", "become", "box", "break", "const", "continue", "crate",
    "do", "dyn", "else", "enum", "extern", "false", "final", "fn", "for", "if", "impl", "in",
    "let", "loop", "macro", "match", "mod", "move", "mut", "override", "priv", "pub", "ref",
    "return", "Self", "self", "static", "struct", "super", "trait", "true", "try", "type",
    "typeof", "unsafe", "unsized", "use", "virtual", "where", "while", "yield"]

/-- The word is a keyword and so no name. -/
def isKeyword (id : Ident) : Bool :=
  !id.raw && keywords.contains id.name

/-- Names that cannot be written raw. -/
def unrawable : List String := ["_", "super", "self", "Self", "crate"]

end Ident

end TaggedRows
