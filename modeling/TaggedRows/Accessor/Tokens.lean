import TaggedRows.Accessor.Basic
import TaggedRows.RuntimePath

/-!
# Accessors as tokens

The tokens of a block of accessors, and of a whole generated unit: an import of what the accessors
of the runtime need, and one block for every mapping.
-/

namespace TaggedRows

open Token (op kw str)

namespace Token

/-- Tokens between delimiters. -/
def within (d : Delimiter) (ts : List Token) : List Token := .opening d :: (ts ++ [.closing d])

/-- Lists of tokens with commas between them. -/
def commas : List (List Token) → List Token
  | [] => []
  | [ts] => ts
  | ts :: more => ts ++ op "," ++ commas more

/-- A path: its names with separators between them. -/
def path : List Ident → List Token
  | [] => []
  | [id] => [.word id]
  | id :: ids => .word id :: (op "::" ++ path ids)

/-- A path from the root, of plain names. -/
def rootPath (names : List String) : List Token :=
  names.flatMap fun n => op "::" ++ [kw n]

/-- The reference to text that lives forever. -/
def staticText : List Token := op "&" ++ [.punct '\'' true, kw "static", kw "str"]

/-- A list of a type. -/
def vecOf (type : List Token) : List Token :=
  rootPath ["std", "vec", "Vec"] ++ op "<" ++ type ++ op ">"

end Token

namespace Accessor

open Token

variable (runtime : RuntimePath)

/-- What a bound value has to offer. -/
def valueType : List Token := op "&" ++ [kw "dyn"] ++ runtime.tokensOf ["rusqlite", "ToSql"]

/-- What a slot for a result has to offer. -/
def slotType : List Token := op "&" ++ [kw "mut", kw "dyn"] ++ runtime.tokensOf ["Column"]

def paramTypeTokens : ParamType → List Token
  | .id => [kw "i64"]
  | .time =>
    runtime.tokensOf ["chrono", "DateTime"] ++ op "<" ++ runtime.tokensOf ["chrono", "Utc"] ++
      op ">"

def resultTokens : ResultType → List Token
  | .object => op "->" ++ [kw "Self"]
  | .texts => op "->" ++ op "&" ++ [.punct '\'' true, kw "static"] ++ within .bracket staticText
  | .text => op "->" ++ staticText
  | .id => op "->" ++ [kw "i64"]
  | .values => op "->" ++ vecOf (valueType runtime)
  | .slots => op "->" ++ vecOf (slotType runtime)
  | .nothing => []

def receiverTokens : Receiver → List (List Token)
  | .none => []
  | .shared => [op "&" ++ [kw "self"]]
  | .exclusive => [op "&" ++ [kw "mut", kw "self"]]

def paramTokens (p : Param) : List Token :=
  [kw p.name] ++ op ":" ++ paramTypeTokens runtime p.type

/-- A field of the object. -/
def fieldTokens (field : Ident) : List Token := [kw "self"] ++ op "." ++ [.word field]

def valueTokens (field : Ident) : List Token :=
  op "&" ++ fieldTokens field ++ [kw "as"] ++ valueType runtime

def slotTokens (field : Ident) : List Token :=
  op "&" ++ [kw "mut"] ++ fieldTokens field ++ [kw "as"] ++ slotType runtime

/-- The arguments of a list of references. -/
def vecArgs (items : List (List Token)) : List Token :=
  rootPath ["std", "vec"] ++ op "!" ++ within .bracket (commas items)

def assignmentTokens (a : Assignment) : List Token :=
  fieldTokens a.field ++ op "=" ++
    (if a.isConverted then
      rootPath ["core", "convert", "From", "from"] ++ within .paren [kw a.param]
    else [kw a.param]) ++ op ";"

def bodyTokens : Body → List Token
  | .fresh =>
    op "<" ++ [kw "Self", kw "as"] ++ rootPath ["core", "default", "Default"] ++ op ">" ++
      rootPath ["default"] ++ within .paren []
  | .texts ts => op "&" ++ within .bracket (commas (ts.map fun t => [str t]))
  | .text t => [str t]
  | .zero => [.literal ⟨.number, "0"⟩]
  | .read field => fieldTokens field
  | .values fields => vecArgs (fields.map (valueTokens runtime))
  | .slots fields => vecArgs (fields.map (slotTokens runtime))
  | .assign assignments => assignments.flatMap assignmentTokens

/-- The parameters; more than one, besides the object, are closed by a comma. -/
def paramsTokens (a : Accessor) : List Token :=
  commas (receiverTokens a.receiver ++ a.params.map (paramTokens runtime)) ++
    (if 1 < a.params.length then op "," else [])

/-- The tokens of an accessor. -/
def tokens (a : Accessor) : List Token :=
  [kw "fn", kw a.name] ++ within .paren (paramsTokens runtime a) ++ resultTokens runtime a.result ++
    within .brace (bodyTokens runtime a.body)

end Accessor

namespace RowMapping

/-- The tokens of the block of accessors. -/
def tokens (m : RowMapping) (runtime : RuntimePath) : List Token :=
  [kw "impl"] ++ runtime.tokensOf ["DbObject"] ++ [kw "for"] ++ Token.path m.typePath ++
    Token.within .brace (m.accessors.flatMap (Accessor.tokens runtime))

end RowMapping

namespace GeneratedUnit

/-- The tokens of the import in front of all blocks. -/
def importTokens (runtime : RuntimePath) : List Token :=
  op "#" ++ Token.within .bracket (kw "allow" :: Token.within .paren [kw "unused_imports"]) ++
    [kw "use"] ++ runtime.tokens ++ op "::" ++
    Token.within .brace (Token.commas
      [[kw "Column", kw "as", kw "_"], [kw "DbObject", kw "as", kw "_"]]) ++ op ";"

/-- The tokens of a unit with the given blocks. -/
def tokens (runtime : RuntimePath) (mappings : List RowMapping) : List Token :=
  importTokens runtime ++ mappings.flatMap fun m => m.tokens runtime

end GeneratedUnit

end TaggedRows
