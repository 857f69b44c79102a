import TaggedRows.Source.Form

/-!
# The phrases of the source grammar

The phrases by name, and the small forms that all parts of the grammar share: tests for what may
begin a path, a bound or an expression, attributes, visibilities and plain paths.

Several phrases come in two forms. `type plus` allows a sum of bounds when `plus` holds, and
`expr structs` allows a struct literal when `structs` does: the head of an `if` or a loop does not,
since the brace after it opens the body.
-/

namespace TaggedRows.Source

inductive Phrase where
  | tree
  | attribute
  | useTree
  | type (plus : Bool)
  | genericArgs
  | generics
  | bound
  | bounds (plus : Bool)
  | whereClause
  | pattern
  | alternatives
  | expr (structs : Bool)
  | assignTail (structs : Bool)
  | rangeTail (structs : Bool)
  | logic (structs : Bool)
  | logicTail (structs : Bool)
  | comparison (structs : Bool)
  | comparisonTail (structs : Bool)
  | arith (structs : Bool)
  | arithTail (structs : Bool)
  | castTail
  | unary (structs : Bool)
  | trailers
  | atom (structs : Bool)
  | blockLike
  | block
  | statement
  | item
  | itemBody
  | field
  | tupleField
  | variant
  | structTail
  deriving DecidableEq, Repr

/-- Forms over the phrases. -/
abbrev SForm := Form Phrase

open Form

def paren (f : SForm) : SForm := group .paren f
def bracket (f : SForm) : SForm := group .bracket f
def brace (f : SForm) : SForm := group .brace f
def openParen : SForm := .token (.opening .paren)
def openBracket : SForm := .token (.opening .bracket)
def openBrace : SForm := .token (.opening .brace)
def anyOpen : SForm := .token .anyOpening
def anyClose : SForm := .token .anyClosing
def name : SForm := .token .name
def word : SForm := .token .word
def literal : SForm := .token .literal
def underscore : SForm := kw "_"
/-- A name or the placeholder. -/
def nameOrUnderscore : SForm := .ite underscore underscore name
def lifetime : SForm := .seq (.token (.joint '\'')) word

/-- An operator that none of the given ones extends. -/
def opOnly (text : String) (longer : List String) : SForm :=
  .seq (never (oneOf (longer.map op))) (op text)

/-- The sign of an assignment or definition, and not of a comparison or a match arm. -/
def equals : SForm := opOnly "=" ["==", "=>"]
def colon : SForm := opOnly ":" ["::"]
def dot : SForm := opOnly "." [".."]
def bang : SForm := opOnly "!" ["!="]
def less : SForm := opOnly "<" ["<="]
def pathSep : SForm := op "::"
def semicolon : SForm := op ";"

/-! ## Token trees and attributes -/

/-- One token, or everything between matching delimiters. -/
def treeForm : SForm :=
  .ite anyOpen (list [anyOpen, .loop (never anyClose) (.phrase .tree), anyClose]) (.token .any)

/-- A delimited sequence of token trees. -/
def delimited : SForm := .seq (look anyOpen) (.phrase .tree)

/-- The words that may stand in a path besides names. -/
def pathWord : SForm := oneOf [name, kw "super", kw "self", kw "Self", kw "crate"]

/-- A path without generic arguments. -/
def plainPath : SForm :=
  list [optIf pathSep pathSep, pathWord, .loop pathSep (.seq pathSep pathWord)]

/-- The inside of an attribute. -/
def attributeBody : SForm :=
  .seq (.ite (kw "unsafe") (kw "unsafe") plainPath)
    (cases .empty [(anyOpen, delimited), (op "=", .seq (op "=") (.phrase (.expr true)))])

def attributeForm : SForm := .seq (op "#") (bracket attributeBody)

def outerAttributes : SForm := .loop (op "#") (.phrase .attribute)

def innerAttributes : SForm :=
  .loop (.seq (.token (.punct '#')) (op "!")) (list [op "#", op "!", bracket attributeBody])

/-! ## Visibility -/

/-- What may restrict a visibility. -/
def restriction : SForm :=
  .ite (kw "in") (.seq (kw "in") plainPath) (oneOf [kw "crate", kw "self", kw "super"])

def visibility : SForm :=
  optIf (kw "pub") (.seq (kw "pub")
    (optIf (.seq openParen (.ite (kw "in") (kw "in")
        (.seq (oneOf [kw "crate", kw "self", kw "super"]) anyClose)))
      (paren restriction)))

/-! ## Imports -/

def rename : SForm := optIf (kw "as") (.seq (kw "as") nameOrUnderscore)

def useTreeForm : SForm :=
  let start := oneOf [name, kw "self", kw "super", kw "crate"]
  cases .refuse
    [(.seq start pathSep, list [start, pathSep, .phrase .useTree]),
      (start, .seq start rename),
      (op "*", op "*"),
      (openBrace, brace (commaList (.seq (optIf pathSep pathSep) (.phrase .useTree))))]

end TaggedRows.Source
