import TaggedRows.Source.Grammar.Phrase

/-!
# Types, bounds and generic parameters
-/

namespace TaggedRows.Source

open Form

def type : SForm := .phrase (.type true)
def typeWithoutPlus : SForm := .phrase (.type false)
def genericArgs : SForm := .phrase .genericArgs

/-! ## Paths -/

/-- Segments that never take arguments. -/
def bareSegment : SForm := oneOf [kw "super", kw "self", kw "crate", kw "try"]

/-- One segment of a path in a type. -/
def typeSegment : SForm :=
  .ite bareSegment bareSegment
    (.seq (.ite (kw "Self") (kw "Self") name)
      (cases .empty
        [(less, genericArgs), (.seq pathSep (op "<"), .seq pathSep genericArgs)]))

/-- One segment of a path in an expression: arguments need a path separator. -/
def exprSegment : SForm :=
  .ite bareSegment bareSegment
    (.seq (.ite (kw "Self") (kw "Self") name)
      (optIf (.seq pathSep (op "<")) (.seq pathSep genericArgs)))

/-- Segments up to a separator that a parenthesis follows. -/
def segments (segment : SForm) : SForm :=
  .seq segment
    (.loop (.seq pathSep (never openParen)) (.seq pathSep segment))

/-- A path in a type. -/
def typePath : SForm := .seq (optIf pathSep pathSep) (segments typeSegment)

/-- A path that may start with a type in angle brackets. -/
def qualifiedPath (segment : SForm) : SForm :=
  .ite (op "<")
    (list [op "<", type, optIf (kw "as") (.seq (kw "as") typePath), op ">", pathSep, segment,
      .loop pathSep (.seq pathSep segment)])
    (.seq (optIf pathSep pathSep) (segments segment))

/-- What a path in a type may begin with. -/
def typePathStart : SForm :=
  oneOf [name, kw "super", kw "self", kw "Self", kw "crate", pathSep, op "<"]

/-! ## Arguments and bounds -/

def returnType (result : SForm) : SForm := optIf (op "->") (.seq (op "->") result)

/-- Arguments in parentheses with a result; only a bound takes them. -/
def parenArgs : SForm :=
  .seq (paren (commaList type)) (returnType typeWithoutPlus)

def constArgument : SForm :=
  cases name [(literal, literal), (op "-", .seq (op "-") literal),
    (oneOf [kw "true", kw "false"], word), (openBrace, .phrase .block)]

/-- What begins a constant argument and no type. -/
def constStart : SForm := oneOf [literal, kw "true", kw "false", .seq (op "-") literal, openBrace]

def boundsUntil (stop : SForm) : SForm :=
  .loop (never stop) (.seq (.phrase .bound) (.ite (op "+") (op "+") (look stop)))

def genericArg : SForm :=
  cases
    (.seq type
      (cases .empty
        [(equals, .seq (op "=") (.ite constStart constArgument type)),
          (colon, .seq (op ":") (boundsUntil (oneOf [op ",", op ">"])))]))
    [(.seq lifetime (never (op "+")), lifetime), (constStart, constArgument)]

def angleList (item : SForm) : SForm :=
  list [op "<", .loop (never (op ">")) (.seq item (.ite (op ">") .empty (op ","))), op ">"]

def genericArgsForm : SForm := angleList genericArg

def lifetimeBounds (stop : SForm) : SForm :=
  .loop (never stop) (.seq lifetime (.ite (op "+") (op "+") (look stop)))

def paramStop : SForm := oneOf [op ",", op ">", op "="]

def lifetimeParam : SForm :=
  .seq lifetime (optIf (op ":") (.seq (op ":") (lifetimeBounds paramStop)))

def forLifetimes : SForm :=
  optIf (kw "for") (.seq (kw "for") (angleList (.seq outerAttributes lifetimeParam)))

/-- A trait with the marks before it. -/
def traitBound : SForm :=
  list [forLifetimes,
    cases .empty [(op "~", .seq (op "~") (kw "const")), (kw "const", kw "const")],
    optIf (op "?") (op "?"), forLifetimes, typePath,
    cases .empty [(openParen, parenArgs), (.seq pathSep openParen, .seq pathSep parenArgs)]]

def boundForm : SForm :=
  cases traitBound
    [(lifetime, lifetime),
      (kw "use", .seq (kw "use")
        (angleList (.ite lifetime lifetime (.ite (kw "Self") (kw "Self") name)))),
      (openParen, paren traitBound)]

/-- What may follow a plus in a sum of bounds. -/
def boundStart : SForm :=
  oneOf [lifetime, word, pathSep, op "?", op "~", openParen]

def plusBounds : SForm :=
  .loop (op "+") (.seq (op "+") (optIf boundStart (.phrase .bound)))

/-- Bounds with at least one trait; more than one only with `plus`. -/
def boundsForm (plus : Bool) : SForm :=
  if plus then
    list [.loop lifetime (.seq lifetime (op "+")), .phrase .bound, plusBounds]
  else .seq (never lifetime) (.phrase .bound)

/-! ## Generic parameters -/

def genericParam : SForm :=
  .seq outerAttributes
    (cases
      (list [nameOrUnderscore,
        optIf (op ":") (.seq (op ":") (boundsUntil paramStop)),
        optIf (op "=") (.seq (op "=") type)])
      [(lifetime, lifetimeParam),
        (kw "const", list [kw "const", name, op ":", type,
          optIf (op "=") (.seq (op "=") constArgument)])])

def genericsForm : SForm := optIf (op "<") (angleList genericParam)

/-- What ends the bounds of a condition. -/
def predicateStop : SForm := oneOf [anyClose, openBrace, op ",", semicolon, colon, op "="]

def predicate : SForm :=
  .ite (.seq lifetime (op ":"))
    (list [lifetime, op ":", lifetimeBounds predicateStop])
    (list [forLifetimes, type, op ":", boundsUntil predicateStop])

def whereClauseForm : SForm :=
  optIf (kw "where")
    (.seq (kw "where")
      (.loop (never (oneOf [anyClose, openBrace, op ",", semicolon, colon, op "="]))
        (.seq predicate (.ite (op ",") (op ",")
          (look (oneOf [anyClose, openBrace, semicolon, colon, op "="]))))))

/-! ## Types -/

/-- The marks of a function before `fn`. -/
def abi : SForm := optIf (kw "extern") (.seq (kw "extern") (opt (.token .stringLiteral)))

def bareFnArg : SForm :=
  .seq outerAttributes
    (.seq (optIf (.seq nameOrUnderscore colon) (.seq nameOrUnderscore (op ":")))
      (.ite (op "...") (op "...") type))

def bareFn : SForm :=
  list [opt (kw "unsafe"), abi, kw "fn", paren (commaList bareFnArg), returnType typeWithoutPlus]

/-- A sum of bounds goes on after its first member. -/
def sumTail (plus : Bool) : SForm :=
  if plus then plusBounds else .empty

def parenType (plus : Bool) : SForm :=
  .ite (.seq openParen (op "?"))
    (.seq (paren traitBound) plusBounds)
    (.seq
      (paren (cases (.seq type (optIf (op ",") (.seq (op ",") (commaList type))))
        [(anyClose, .empty), (lifetime, .phrase (.bounds true))]))
      (sumTail plus))

def typeForm (plus : Bool) : SForm :=
  let reference := list [op "&", opt lifetime, opt (kw "mut"), typeWithoutPlus]
  let pointer := list [op "*", .ite (kw "mut") (kw "mut") (kw "const"), typeWithoutPlus]
  let array := bracket (.seq type (optIf semicolon (.seq semicolon (.phrase (.expr true)))))
  let base := cases .refuse
    [(openParen, parenType plus),
      (oneOf [kw "fn", kw "unsafe", kw "extern"], bareFn),
      (.seq plainPath bang, list [plainPath, op "!", delimited]),
      (op "<", qualifiedPath typeSegment),
      (typePathStart, .seq (qualifiedPath typeSegment) (sumTail plus)),
      (kw "dyn", list [kw "dyn", opt (op "*"), .phrase (.bounds plus)]),
      (openBracket, array),
      (op "*", pointer),
      (op "&", reference),
      (opOnly "!" ["!="], op "!"),
      (kw "impl", .seq (kw "impl") (.phrase (.bounds plus))),
      (underscore, underscore)]
  .ite (kw "for")
    (list [forLifetimes, look (oneOf [name, kw "fn", kw "unsafe", kw "extern", kw "super",
      kw "self", kw "Self", kw "crate"]), base])
    base

end TaggedRows.Source
