import TaggedRows.Source.Grammar.Items
import TaggedRows.Source.Lexer

/-!
# The path of the runtime

Generated code reaches the runtime by a path: names with separators between them, each of which may
have generic arguments. A path is *plain* when none has.
-/

namespace TaggedRows

open Source

structure PathSegment where
  ident : Ident
  /-- The generic arguments with their brackets, and the separator before them if it is written. -/
  arguments : List Token
  deriving DecidableEq, Repr

structure RuntimePath where
  /-- The path begins with a separator. -/
  isAbsolute : Bool
  first : PathSegment
  rest : List PathSegment
  deriving DecidableEq, Repr

namespace RuntimePath

/-- The path where none is configured. -/
def defaultText : String := "::dbobj"

def default : RuntimePath := ⟨true, ⟨.plain "dbobj", []⟩, []⟩

/-! ## Reading -/

/-- Operators that are one token inside of generic arguments. -/
def argumentOperators : List (List Char) :=
  [['-', '>'], [':', ':']]

/-- Punctuation with only the characters of operators and the marks of lifetimes joint. -/
def respace : List Token → List Token
  | [] => []
  | [.punct c _] => [.punct c false]
  | [t] => [t]
  | .punct c joint :: .punct d joint' :: ts =>
    .punct c (c = '\'' || (joint && argumentOperators.contains [c, d])) ::
      respace (.punct d joint' :: ts)
  | .punct c _ :: t :: ts => .punct c (c = '\'') :: respace (t :: ts)
  | t :: u :: ts => t :: respace (u :: ts)

/-- Cuts a path into its segments. The bound on their number is the number of tokens. -/
def segments? : Nat → List Token → Option (List PathSegment)
  | fuel + 1, .word id :: ts =>
    match takeForm? (.seq (Form.optIf pathSep pathSep) (.seq (Form.look (Form.op "<")) genericArgs))
        ts with
    | some rest => more id (respace (ts.take (ts.length - rest.length))) rest fuel
    | none => more id [] ts fuel
  | _, _ => none
where
  more (id : Ident) (arguments : List Token) (ts : List Token) (fuel : Nat) :
      Option (List PathSegment) :=
    match ts with
    | [] => some [⟨id, arguments⟩]
    | .punct ':' true :: .punct ':' _ :: rest => (segments? fuel rest).map (⟨id, arguments⟩ :: ·)
    | _ => none

/-- Reads the tokens of a path. -/
def ofTokens? (ts : List Token) : Option RuntimePath :=
  if isForm typePath ts then
    match ts with
    | .punct ':' _ :: .punct ':' _ :: rest => (segments? ts.length rest).bind (build true)
    | _ => (segments? ts.length ts).bind (build false)
  else none
where
  build (isAbsolute : Bool) : List PathSegment → Option RuntimePath
    | [] => none
    | s :: ss => some ⟨isAbsolute, s, ss⟩

/-- Reads a path; blanks and comments between its parts do not matter. -/
def parse? (text : String) : Option RuntimePath := (Token.lex? text).bind ofTokens?

/-! ## Writing -/

variable (path : RuntimePath)

def segmentTokens (s : PathSegment) : List Token := .word s.ident :: s.arguments

/-- The tokens of the path. -/
def tokens : List Token :=
  (if path.isAbsolute then Token.op "::" else []) ++ segmentTokens path.first ++
    path.rest.flatMap fun s => Token.op "::" ++ segmentTokens s

/-- The path of something in the runtime. -/
def tokensOf (names : List String) : List Token :=
  path.tokens ++ names.flatMap fun n => Token.op "::" ++ [Token.kw n]

/-- The text of the path; generic arguments are written as plain tokens. -/
def text : String :=
  (if path.isAbsolute then "::" else "") ++
    "::".intercalate ((path.first :: path.rest).map fun s => Token.print (segmentTokens s))

/-- The text of the path of something in the runtime. -/
def textOf (names : List String) : String :=
  path.text ++ String.join (names.map ("::" ++ ·))

end RuntimePath

end TaggedRows
