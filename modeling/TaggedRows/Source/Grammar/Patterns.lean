import TaggedRows.Source.Grammar.Types

/-!
# Patterns
-/

namespace TaggedRows.Source

open Form

def pattern : SForm := .phrase .pattern

/-- Patterns separated by bars, with an optional bar before them. -/
def alternatives : SForm := .phrase .alternatives

def bar : SForm := opOnly "|" ["||", "|="]

def alternativesForm : SForm :=
  list [optIf bar bar, pattern, .loop bar (.seq bar pattern)]

/-- A bound of a range of values. -/
def rangeBound : SForm :=
  cases (qualifiedPath exprSegment)
    [(literal, literal), (op "-", .seq (op "-") literal),
      (oneOf [kw "true", kw "false"], word), (kw "const", .seq (kw "const") (.phrase .block))]

/-- What ends a range without an upper bound. -/
def rangeStop : SForm :=
  oneOf [anyClose, op "|", op "=", colon, op ",", semicolon, kw "if"]

/-- The rest of a range after its lower bound. -/
def patternRange : SForm :=
  cases (.seq (op "..") (optIf (never rangeStop) rangeBound))
    [(op "..=", .seq (op "..=") rangeBound), (op "...", .seq (op "...") rangeBound)]

def maybeRange : SForm := optIf (op "..") patternRange

def fieldPattern : SForm :=
  .seq outerAttributes
    (cases
      (list [opt (kw "box"), opt (kw "ref"), opt (kw "mut"), name])
      [(.token .index, list [.token .index, op ":", alternatives]),
        (.seq name colon, list [name, op ":", alternatives])])

/-- The fields of a struct; dots at the end stand for the others. -/
def structPattern : SForm :=
  brace
    (.seq
      (.loop (never (oneOf [anyClose, op ".."]))
        (.seq fieldPattern (.ite anyClose .empty (op ","))))
      (optIf (op "..") (op "..")))

def pathPattern : SForm :=
  .ite (.seq plainPath bang) (list [plainPath, op "!", delimited])
    (.seq (qualifiedPath exprSegment)
      (cases .empty
        [(openBrace, structPattern),
          (openParen, paren (commaList alternatives)),
          (op "..", patternRange)]))

def bindingPattern : SForm :=
  list [opt (kw "ref"), opt (kw "mut"), .ite (kw "self") (kw "self") name,
    optIf (op "@") (.seq (op "@") pattern)]

def patternForm : SForm :=
  cases .refuse
    [(oneOf [.seq name (oneOf [pathSep, bang, openBrace, openParen, op ".."]),
        .seq (kw "self") pathSep, pathSep, op "<", kw "Self", kw "super", kw "crate"],
        pathPattern),
      (underscore, underscore),
      (kw "box", .seq (kw "box") pattern),
      (oneOf [op "-", literal, kw "true", kw "false", kw "const"], .seq rangeBound maybeRange),
      (oneOf [kw "ref", kw "mut", kw "self", name], bindingPattern),
      (op "&", list [op "&", opt (kw "mut"), pattern]),
      (openParen, paren (commaList alternatives)),
      (openBracket, bracket (commaList alternatives)),
      (opOnly ".." ["..."], patternRange)]

end TaggedRows.Source
