import TaggedRows.Source.Grammar.Patterns

/-!
# Expressions and statements

The levels of binding are phrases of their own: assignment, range, the logical operators,
comparison (which does not chain), the remaining binary operators, casts and prefix operators. Each
level but the first is an operand and its *tail*, so that a statement that began as a block can go
on as an expression.
-/

namespace TaggedRows.Source

open Form

def expr : SForm := .phrase (.expr true)
def block : SForm := .phrase .block

/-! ## Binary operators -/

def comparisonOp : SForm :=
  oneOf [op "==", op "!=", opOnly "<=" [], opOnly ">=" [], opOnly "<" ["<<"], opOnly ">" [">>"]]

def arithOp : SForm :=
  oneOf [opOnly "+" ["+="], opOnly "-" ["-="], opOnly "*" ["*="], opOnly "/" ["/="],
    opOnly "%" ["%="], opOnly "^" ["^="], opOnly "&" ["&&", "&="], opOnly "|" ["||", "|="],
    opOnly "<<" ["<<="], opOnly ">>" [">>="]]

def logicOp : SForm := oneOf [op "&&", op "||"]

def assignOp : SForm :=
  oneOf ((["+=", "-=", "*=", "/=", "%=", "^=", "&=", "|=", "<<=", ">>="].map op) ++ [equals])

/-- What ends a range without an upper bound. -/
def rangeEnd (structs : Bool) : SForm :=
  oneOf ([anyClose, op ",", semicolon, dot, op "?", op "=>", op "=", op "+", op "/", op "%",
    op "^", op ">", op "<=", op "!=", op "-=", op "*=", op "&=", op "|=", op "<<=", kw "as"] ++
    (if structs then [] else [openBrace]))

/-- A range after its lower bound. -/
def rangeRest (structs : Bool) : SForm :=
  .ite (op "..=") (.seq (op "..=") (.phrase (.logic structs)))
    (.seq (opOnly ".." ["..."]) (optIf (never (rangeEnd structs)) (.phrase (.logic structs))))

def assignTailForm (structs : Bool) : SForm :=
  .seq (.phrase (.rangeTail structs))
    (optIf assignOp (.seq assignOp (.phrase (.expr structs))))

def rangeTailForm (structs : Bool) : SForm :=
  .seq (.phrase (.logicTail structs)) (optIf (op "..") (rangeRest structs))

def logicTailForm (structs : Bool) : SForm :=
  .seq (.phrase (.comparisonTail structs))
    (.loop logicOp (.seq logicOp (.phrase (.comparison structs))))

def comparisonTailForm (structs : Bool) : SForm :=
  .seq (.phrase (.arithTail structs))
    (optIf comparisonOp (.seq comparisonOp (.phrase (.arith structs))))

def arithTailForm (structs : Bool) : SForm :=
  .seq (.phrase .castTail)
    (.loop arithOp (list [arithOp, .phrase (.unary structs), .phrase .castTail]))

def castTailForm : SForm := .loop (kw "as") (.seq (kw "as") typeWithoutPlus)

/-! ## Operands -/

def unaryForm (structs : Bool) : SForm :=
  let raw := kw "raw"
  .seq outerAttributes
    (cases (.seq (.phrase (.atom structs)) (.phrase .trailers))
      [(op "&",
          list [op "&",
            .ite (.seq raw (oneOf [kw "mut", kw "const"]))
              (.seq raw (.ite (kw "mut") (kw "mut") (kw "const"))) (opt (kw "mut")),
            .phrase (.unary structs)]),
        (oneOf [op "*", op "!", op "-"],
          .seq (oneOf [op "*", op "!", op "-"]) (.phrase (.unary structs)))])

def callArgs : SForm := paren (commaList expr)

/-- A field, a method call or an await, after the dot. -/
def access : SForm :=
  cases
    (.seq name
      (.ite pathSep (list [pathSep, genericArgs, callArgs]) (optIf openParen callArgs)))
    [(kw "await", kw "await"), (.token .index, .token .index)]

def trailersForm : SForm :=
  .loop (oneOf [openParen, dot, openBracket, op "?"])
    (cases (op "?")
      [(openParen, callArgs), (dot, .seq (op ".") access), (openBracket, bracket expr)])

def fieldValue : SForm :=
  .seq outerAttributes
    (cases name
      [(.token .index, list [.token .index, op ":", expr]),
        (.seq name colon, list [name, op ":", expr])])

/-- The fields of a struct literal; after dots stands the value that gives the others. -/
def structFields : SForm :=
  brace
    (.seq
      (.loop (never (oneOf [anyClose, op ".."]))
        (.seq fieldValue (.ite anyClose .empty (op ","))))
      (optIf (op "..") (.seq (op "..") (optIf (never anyClose) expr))))

def pathExpr (structs : Bool) : SForm :=
  .ite (.seq plainPath bang) (list [plainPath, op "!", delimited])
    (.seq (qualifiedPath exprSegment)
      (if structs then optIf openBrace structFields else .empty))

def pathStart : SForm :=
  oneOf [name, pathSep, op "<", kw "self", kw "Self", kw "super", kw "crate",
    .seq (kw "try") (oneOf [bang, pathSep])]

def closureStart : SForm :=
  oneOf [op "|", kw "move", .seq (kw "for") (.seq (op "<") (oneOf [lifetime, op ">"])),
    .seq (kw "const") (never openBrace), kw "static",
    .seq (kw "async") (oneOf [op "|", kw "move"])]

def closureParam : SForm :=
  list [outerAttributes, pattern, optIf colon (.seq (op ":") type)]

def closure (structs : Bool) : SForm :=
  list [forLifetimes, opt (kw "const"), opt (kw "static"), opt (kw "async"), opt (kw "move"),
    op "|", .loop (never (op "|")) (.seq closureParam (.ite (op "|") .empty (op ","))), op "|",
    .ite (op "->") (list [op "->", typeWithoutPlus, block]) (.phrase (.expr structs))]

/-- What an expression may begin with. -/
def exprStart : SForm :=
  oneOf [word, openParen, openBracket, openBrace, literal, opOnly "!" ["!="],
    opOnly "-" ["-=", "->"], opOnly "*" ["*="], opOnly "|" ["|="], opOnly "&" ["&="], op "..",
    opOnly "<" ["<=", "<<="], pathSep, lifetime]

/-- An expression, if one begins here. -/
def maybeExpr (structs : Bool) : SForm :=
  let start := if structs then exprStart else .seq (never openBrace) exprStart
  optIf start (.phrase (.expr structs))

def asyncBlockStart : SForm :=
  .seq (kw "async") (.seq (opt (kw "move")) openBrace)

def ifExpr : SForm :=
  list [kw "if", .phrase (.expr false), block,
    optIf (kw "else")
      (.seq (kw "else") (.ite (kw "if") (.phrase .blockLike) block))]

/-- An expression that may stand as a statement without a semicolon. -/
def blockLikeStart : SForm :=
  oneOf [kw "if", kw "while", .seq (kw "for") (never (op "<")), kw "loop", kw "match",
    .seq (kw "try") openBrace, .seq (kw "unsafe") openBrace, .seq (kw "const") openBrace,
    openBrace, .seq lifetime (op ":")]

def armBody : SForm :=
  let comma := .ite anyClose .empty (op ",")
  .ite blockLikeStart
    (.seq (.phrase .blockLike)
      (.ite (oneOf [dot, op "?"])
        (list [.phrase .trailers, .phrase (.assignTail true), comma])
        (opt (op ","))))
    (.seq expr comma)

def arm : SForm :=
  list [outerAttributes, alternatives, optIf (kw "if") (.seq (kw "if") expr), op "=>", armBody]

def blockLikeForm : SForm :=
  cases block
    [(kw "if", ifExpr),
      (kw "while", list [kw "while", .phrase (.expr false), block]),
      (kw "for", list [kw "for", alternatives, kw "in", .phrase (.expr false), block]),
      (kw "loop", .seq (kw "loop") block),
      (kw "match", list [kw "match", .phrase (.expr false),
        brace (.seq innerAttributes (.loop (never anyClose) arm))]),
      (oneOf [kw "try", kw "unsafe", kw "const"], .seq word block),
      (lifetime, list [lifetime, op ":",
        look (oneOf [kw "while", kw "for", kw "loop", openBrace]), .phrase .blockLike])]

def arrayExpr : SForm :=
  bracket
    (optIf (never anyClose)
      (.seq expr
        (.ite semicolon (.seq semicolon expr) (optIf (op ",") (.seq (op ",") (commaList expr))))))

def atomForm (structs : Bool) : SForm :=
  cases .refuse
    [(oneOf [literal, kw "true", kw "false"], .token .any),
      (asyncBlockStart, list [kw "async", opt (kw "move"), block]),
      (.seq (kw "try") openBrace, .seq (kw "try") block),
      (closureStart, closure structs),
      (pathStart, pathExpr structs),
      (openParen, paren (commaList expr)),
      (kw "break", list [kw "break", opt lifetime, maybeExpr structs]),
      (kw "continue", .seq (kw "continue") (opt lifetime)),
      (oneOf [kw "return", kw "become", kw "yield"], .seq word (maybeExpr structs)),
      (openBracket, arrayExpr),
      (kw "let", list [kw "let", alternatives, op "=", .phrase (.comparison structs)]),
      (blockLikeStart, .phrase .blockLike),
      (op "..", rangeRest structs),
      (underscore, underscore)]

/-! ## Statements -/

def blockForm : SForm :=
  brace (.seq innerAttributes
    (.loop (never anyClose) (.ite semicolon semicolon (.phrase .statement))))

def statementEnd : SForm := .ite semicolon semicolon (look anyClose)

def letStatement : SForm :=
  list [kw "let", pattern, optIf colon (.seq (op ":") type),
    optIf (op "=") (list [op "=", expr, optIf (kw "else") (.seq (kw "else") block)]),
    semicolon]

/-- The head of a function up to `fn`. -/
def functionStart : SForm :=
  list [opt (kw "const"), opt (kw "async"), opt (kw "unsafe"), abi, kw "fn"]

/-- What an item among statements begins with. -/
def itemStart : SForm :=
  oneOf [functionStart, kw "pub", .seq (kw "crate") (never pathSep), kw "extern", kw "use",
    .seq (kw "static") (oneOf [kw "mut", name]),
    .seq (kw "const") nameOrUnderscore,
    .seq (kw "unsafe") (never openBrace), kw "mod", kw "type", kw "struct", kw "enum",
    .seq (kw "union") name, .seq (kw "auto") (kw "trait"), kw "trait",
    .seq (kw "default") (oneOf [kw "unsafe", kw "impl"]), kw "impl", kw "macro",
    list [plainPath, bang, .ite (kw "try") (kw "try") name]]

/-- A macro call in braces that ends there. -/
def braceMacro : SForm :=
  list [plainPath, bang, openBrace]

def expressionStatement : SForm :=
  cases (.seq expr statementEnd)
    [(braceMacro,
        list [plainPath, op "!", delimited,
          .ite (oneOf [dot, op "?"])
            (list [.phrase .trailers, .phrase (.assignTail true), statementEnd])
            (opt semicolon)]),
      (blockLikeStart,
        .seq (.phrase .blockLike)
          (.ite (oneOf [dot, op "?"])
            (list [.phrase .trailers, .phrase (.assignTail true), statementEnd])
            (opt semicolon)))]

def statementForm : SForm :=
  .seq outerAttributes
    (cases expressionStatement
      [(kw "let", letStatement), (itemStart, .phrase .itemBody)])

end TaggedRows.Source
