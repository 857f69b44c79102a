import TaggedRows.Accessor.Tokens
import TaggedRows.Layout

/-!
# Accessors as layouts

The layout of generated code. Statements stand on lines of their own, and what stands between
brackets is indented where it does not fit on a line. The references in a list are laid out as
plain tokens: their spaces are breaks (`Layout.ofTokens`).
-/

namespace TaggedRows

namespace Layout

/-! ## Plain tokens -/

/-- What the token before says about the space in front of the next one. -/
inductive Left where
  | dot
  /-- The first half of a separator. -/
  | halfSeparator
  | separator
  | name
  | other
  deriving DecidableEq, Repr

/-- The word is set apart on both sides wherever it stands. -/
def isSetApart (id : Ident) : Bool :=
  id.isKeyword && id.name ∉ ["self", "super", "Self"]

/-- Whether a space belongs before a token, and what it says about the next one. -/
def spacing : Left → Token → Bool × Left
  | left, .word id =>
    if isSetApart id then (true, .other) else (left ≠ .dot && left ≠ .separator, .name)
  | left, .literal _ => (left ≠ .dot, .name)
  | .halfSeparator, .punct ':' _ => (false, .separator)
  | left, .punct ':' true => (left ≠ .name, .halfSeparator)
  | left, .punct '.' _ => (left ≠ .name, .dot)
  | _, .punct c _ => (c ≠ ',' && c ≠ ';', .other)
  | _, .opening _ => (true, .other)
  | _, .closing _ => (true, .other)

/-- The break in front of a token, if any; none follows a joint character. -/
def gapBefore (isJoined needsSpace : Bool) (t : Token) : Layout :=
  if isJoined then nil
  else if needsSpace then space
  else match t with
    | .punct '.' _ => cut
    | _ => nil

/-- The token is joined to the next one. -/
def joins : Token → Bool
  | .punct _ joint => joint
  | _ => false

/-- Tokens with breaks for the spaces between them. -/
def tokensFrom (left : Left) (isJoined : Bool) : List Token → Layout
  | [] => nil
  | t :: ts =>
    let (needsSpace, next) := spacing left t
    gapBefore isJoined needsSpace t ++ text t.chars (tokensFrom next (joins t) ts)

def ofTokens (ts : List Token) : Layout := tokensFrom .other true ts

end Layout

open Layout

namespace Accessor

variable (runtime : RuntimePath)

/-- A type with one argument in angle brackets. -/
def withArgument (type arg : String) : Layout := bracketed (type ++ "<") ">" [word arg]

def paramTypeLayout : ParamType → Layout
  | .id => word "i64"
  | .time =>
    withArgument (runtime.textOf ["chrono", "DateTime"]) (runtime.textOf ["chrono", "Utc"])

def resultLayout : ResultType → Layout
  | .object => word " -> Self"
  | .texts => word " -> &'static [&'static str]"
  | .text => word " -> &'static str"
  | .id => word " -> i64"
  | .values =>
    withArgument " -> ::std::vec::Vec" ("&dyn " ++ runtime.textOf ["rusqlite", "ToSql"])
  | .slots => withArgument " -> ::std::vec::Vec" ("&mut dyn " ++ runtime.textOf ["Column"])
  | .nothing => nil

def receiverLayout : Receiver → List Layout
  | .none => []
  | .shared => [word "&self"]
  | .exclusive => [word "&mut self"]

def paramLayout (p : Param) : Layout := word (p.name ++ ": ") ++ paramTypeLayout runtime p.type

/-- A list of references, filled from line to line. -/
def vecLayout (items : List (List Token)) : Layout :=
  word "::std::vec![" ++
    (if items.isEmpty then nil
      else consistent step [cut, flowing 0 [ofTokens (Token.commas items)], cutBack (-step)]) ++
    word "]"

def assignmentLayout (a : Assignment) : Layout :=
  flowing 0
    [flowing 0
      [consistent step [word "self", cut, word ("." ++ a.field.text)], word " = ", seam,
        if a.isConverted then bracketed "::core::convert::From::from(" ")" [word a.param]
        else word a.param],
      word ";"]

/-- The statements of a body. -/
def statements : Body → List Layout
  | .fresh => [word "<Self as ::core::default::Default>::default()"]
  | .texts ts => [bracketed "&[" "]" (ts.map fun t => word (quoteString t))]
  | .text t => [word (quoteString t)]
  | .zero => [word "0"]
  | .read field => [word ("self." ++ field.text)]
  | .values fields => [vecLayout (fields.map (valueTokens runtime))]
  | .slots fields => [vecLayout (fields.map (slotTokens runtime))]
  | .assign assignments => assignments.map assignmentLayout

/-- Layouts on lines of their own, in braces. -/
def lines : List Layout → Layout
  | [] => seam
  | ls => newline 0 ++ linesFrom ls
where
  linesFrom : List Layout → Layout
    | [] => nil
    | [l] => l ++ newline (-step)
    | l :: ls => l ++ newline 0 ++ linesFrom ls

def paramsLayout (a : Accessor) : Layout :=
  match receiverLayout a.receiver ++ a.params.map (paramLayout runtime) with
  | [] => nil
  | ls => consistent 0 [cut, commaItems ls]

/-- The layout of an accessor. -/
def layout (a : Accessor) : Layout :=
  consistent step
    [word ("fn " ++ a.name ++ "("), seam, paramsLayout runtime a, word ")",
      consistent (-step) [resultLayout runtime a.result], word " \x7b",
      lines (statements runtime a.body)] ++
    word "\x7d"

end Accessor

namespace RowMapping

/-- The layout of the block of accessors. -/
def layout (m : RowMapping) (runtime : RuntimePath) : Layout :=
  consistent step
    [flowing (-step)
      [consistent step [word "impl"], word (" " ++ runtime.textOf ["DbObject"]), space,
        word ("for " ++ "::".intercalate (m.typePath.map Ident.text))],
      word " \x7b", Accessor.lines (m.accessors.map (Accessor.layout runtime))] ++
    word "\x7d" ++ newline 0

end RowMapping

namespace GeneratedUnit

def importLayout (runtime : RuntimePath) : Layout :=
  word "#[allow(unused_imports)]" ++ newline 0 ++ word ("use " ++ runtime.textOf [] ++ "::\x7b") ++
    consistent step
      [cut, flowing 0 [word "Column as _,", space, word "DbObject as _"], lastComma (-step)] ++
    word "\x7d;" ++ newline 0

/-- The layout of a unit with the given blocks. -/
def layout (runtime : RuntimePath) (mappings : List RowMapping) : Layout :=
  consistent 0 (importLayout runtime :: mappings.map fun m => m.layout runtime)

end GeneratedUnit

end TaggedRows
