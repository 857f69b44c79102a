import TaggedRows.Source.Grammar.Expressions

/-!
# Items, and the grammar as a whole
-/

namespace TaggedRows.Source

open Form

def whereClause : SForm := .phrase .whereClause
def generics : SForm := .phrase .generics

/-! ## Functions -/

/-- The receiver of a method. -/
def receiver : SForm :=
  .ite (op "&") (list [op "&", opt lifetime, opt (kw "mut"), kw "self"])
    (list [opt (kw "mut"), kw "self", optIf colon (.seq (op ":") type)])

def receiverStart : SForm :=
  list [optIf (op "&") (.seq (op "&") (opt lifetime)), opt (kw "mut"), kw "self"]

def functionParam : SForm :=
  .seq outerAttributes
    (cases (list [pattern, op ":", .ite (op "...") (op "...") type])
      [(op "...", op "..."), (receiverStart, receiver)])

def signature : SForm :=
  list [functionStart, name, generics, paren (commaList functionParam), returnType type,
    whereClause]

/-- A function, with a body or without one. -/
def function : SForm := .seq signature (.ite semicolon semicolon block)

/-! ## Constants, statics and type aliases -/

def constItem : SForm :=
  list [kw "const", nameOrUnderscore, generics, op ":", type,
    optIf (op "=") (.seq (op "=") expr), whereClause, semicolon]

def staticItem : SForm :=
  list [kw "static", opt (kw "mut"), name,
    .ite (op "=") (list [op "=", expr, semicolon])
      (list [op ":", type, optIf (op "=") (.seq (op "=") expr), semicolon])]

def typeItem : SForm :=
  list [kw "type", name, generics, optIf colon (.seq (op ":") (boundsUntil
      (oneOf [kw "where", op "=", semicolon]))),
    whereClause, optIf (op "=") (.seq (op "=") type), whereClause, semicolon]

/-! ## Structs, enums and unions -/

def fieldForm : SForm :=
  list [outerAttributes, visibility, nameOrUnderscore, op ":", type]

def tupleFieldForm : SForm := list [outerAttributes, visibility, type]

def namedFields : SForm := brace (commaList (.phrase .field))
def tupleFields : SForm := paren (commaList (.phrase .tupleField))

/-- A struct after its generic parameters. -/
def structTailForm : SForm :=
  cases (.seq whereClause (.ite semicolon semicolon namedFields))
    [(openParen, list [tupleFields, whereClause, semicolon])]

def structItem : SForm := list [kw "struct", name, generics, .phrase .structTail]

def variantForm : SForm :=
  list [outerAttributes, visibility, name,
    cases .empty [(openBrace, namedFields), (openParen, tupleFields)],
    optIf (op "=") (.seq (op "=") expr)]

def enumItem : SForm :=
  list [kw "enum", name, generics, whereClause, brace (commaList (.phrase .variant))]

def unionItem : SForm := list [kw "union", name, generics, whereClause, namedFields]

/-! ## Macros -/

def macroStart : SForm := oneOf [name, kw "self", kw "super", kw "crate", pathSep]

/-- A macro call as an item: braces end it, other delimiters need a semicolon. -/
def macroCall (named : SForm) : SForm :=
  list [plainPath, op "!", named,
    .ite openBrace (.phrase .tree) (.seq delimited semicolon)]

def macroItem : SForm := macroCall (.ite (kw "try") (kw "try") (opt name))

def macroRules : SForm :=
  list [kw "macro", name,
    .ite openParen (.seq (.phrase .tree) (.seq (look openBrace) (.phrase .tree)))
      (.seq (look openBrace) (.phrase .tree))]

/-! ## Traits and implementations -/

/-- A mark that an implementation may be replaced. -/
def defaultMark : SForm := optIf (.seq (kw "default") (never bang)) (kw "default")

/-- A member of a trait or an implementation. -/
def associatedItem : SForm :=
  .seq outerAttributes
    (.ite (.seq plainPath bang) (macroCall .empty)
      (list [visibility, defaultMark,
        cases function
          [(.seq (kw "const") nameOrUnderscore, constItem), (kw "type", typeItem)]]))

def foreignItem : SForm :=
  .seq outerAttributes
    (.ite (.seq plainPath bang) (macroCall .empty)
      (list [visibility,
        cases (.seq (optIf (.seq (kw "safe") functionStart) (kw "safe")) function)
          [(.seq (optIf (oneOf [kw "safe", kw "unsafe"]) word) (kw "static"),
              .seq (optIf (oneOf [kw "safe", kw "unsafe"]) word) staticItem),
            (kw "type", typeItem)]]))

/-- Members in braces. -/
def members (item : SForm) : SForm := brace (.seq innerAttributes (.loop (never anyClose) item))

def traitItem : SForm :=
  list [opt (kw "unsafe"), opt (kw "auto"), kw "trait", name, generics,
    .ite (op "=")
      (list [op "=", boundsUntil (oneOf [kw "where", semicolon]), whereClause, semicolon])
      (list [optIf (op ":") (.seq (op ":") (boundsUntil (oneOf [kw "where", openBrace]))),
        whereClause, members associatedItem])]

/-- After `impl`, an angle bracket opens parameters and not a qualified path. -/
def implParamsStart : SForm :=
  .seq (op "<")
    (oneOf [op ">", op "#", kw "const",
      .seq (.ite lifetime lifetime name) (oneOf [op ">", op ",", colon, op "="])])

def implItem : SForm :=
  list [defaultMark, opt (kw "unsafe"), kw "impl", optIf implParamsStart generics,
    opt (kw "const"), optIf (.seq (op "!") (never openBrace)) (op "!"), type,
    optIf (kw "for") (.seq (kw "for") type), whereClause, members associatedItem]

/-! ## Items -/

def externCrate : SForm :=
  list [kw "extern", kw "crate", .ite (kw "self") (kw "self") name, rename, semicolon]

def foreignModule : SForm :=
  list [opt (kw "unsafe"), kw "extern", opt (.token .stringLiteral), members foreignItem]

def moduleItem : SForm :=
  list [opt (kw "unsafe"), kw "mod", .ite (kw "try") (kw "try") name,
    .ite semicolon semicolon (members (.phrase .item))]

def useItem : SForm :=
  list [kw "use", optIf pathSep pathSep, .phrase .useTree, semicolon]

/-- An item that a visibility may precede. -/
def declaration (otherwise : SForm) : SForm :=
  let unsafeThen (f : SForm) := .seq (kw "unsafe") f
  cases otherwise
    [(functionStart, function),
      (.seq (kw "extern") (kw "crate"), externCrate),
      (kw "extern", foreignModule),
      (kw "use", useItem),
      (kw "static", staticItem),
      (kw "const", constItem),
      (oneOf [unsafeThen (kw "trait"), unsafeThen (.seq (kw "auto") (kw "trait")),
        kw "trait", .seq (kw "auto") (kw "trait")], traitItem),
      (unsafeThen (kw "impl"), implItem),
      (unsafeThen (kw "extern"), foreignModule),
      (oneOf [unsafeThen (kw "mod"), kw "mod"], moduleItem),
      (kw "type", typeItem),
      (kw "struct", structItem),
      (kw "enum", enumItem),
      (.seq (kw "union") name, unionItem),
      (.ite (kw "impl") (kw "impl") (.seq (kw "default") (never bang)), implItem),
      (kw "macro", macroRules)]

def itemBodyForm : SForm :=
  .ite (kw "pub") (.seq visibility (declaration .refuse))
    (declaration (.ite macroStart macroItem .refuse))

/-- A whole file. -/
def file : SForm :=
  .seq innerAttributes (.loop (.token .any) (.phrase .item))

/-- The form of every phrase. -/
def grammar : Phrase → SForm
  | .tree => treeForm
  | .attribute => attributeForm
  | .useTree => useTreeForm
  | .type plus => typeForm plus
  | .genericArgs => genericArgsForm
  | .generics => genericsForm
  | .bound => boundForm
  | .bounds plus => boundsForm plus
  | .whereClause => whereClauseForm
  | .pattern => patternForm
  | .alternatives => alternativesForm
  | .expr s => .seq (.phrase (.unary s)) (.phrase (.assignTail s))
  | .assignTail s => assignTailForm s
  | .rangeTail s => rangeTailForm s
  | .logic s => .seq (.phrase (.unary s)) (.phrase (.logicTail s))
  | .logicTail s => logicTailForm s
  | .comparison s => .seq (.phrase (.unary s)) (.phrase (.comparisonTail s))
  | .comparisonTail s => comparisonTailForm s
  | .arith s => .seq (.phrase (.unary s)) (.phrase (.arithTail s))
  | .arithTail s => arithTailForm s
  | .castTail => castTailForm
  | .unary s => unaryForm s
  | .trailers => trailersForm
  | .atom s => atomForm s
  | .blockLike => blockLikeForm
  | .block => blockForm
  | .statement => statementForm
  | .item => .seq outerAttributes (.phrase .itemBody)
  | .itemBody => itemBodyForm
  | .field => fieldForm
  | .tupleField => tupleFieldForm
  | .variant => variantForm
  | .structTail => structTailForm

/-- The tokens begin with the form; what follows it. -/
def takeForm? (f : SForm) (ts : List Token) : Option (List Token) :=
  Form.rest? grammar f ts

/-- The tokens are exactly of the form. -/
def isForm (f : SForm) (ts : List Token) : Bool :=
  Form.accepts grammar f ts

end TaggedRows.Source
