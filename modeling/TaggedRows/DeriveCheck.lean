import TaggedRows.SourceSet

/-!
# The check at the declaration

A struct that asks for its mapping is checked where it is declared: it has to have the mapping that
a scan would find, and its key field has to be a 64-bit integer. What is no struct is refused.
-/

namespace TaggedRows

open Source

/-- Why a declaration is refused. -/
inductive DeclarationFault where
  /-- The tokens are no declaration of a type. -/
  | notAType
  | notAStruct
  | mapping (cause : Failure)
  /-- The key field has some other type. -/
  | keyType (field : String)
  deriving DecidableEq, Repr

namespace DeclarationFault

/-- The wording, where the fault has one of its own. -/
def message? : DeclarationFault → Option String
  | notAType => none
  | notAStruct => some "DbTable can only be derived for structs"
  | mapping cause => some cause.message
  | keyType field => some ("key field `" ++ field ++ "` must be i64")

end DeclarationFault

/-! ## Types of keys -/

/-- The tokens without an empty list of generic arguments at their start. -/
def dropEmptyArguments : List Token → List Token
  | .punct ':' true :: .punct ':' _ :: .punct '<' _ :: .punct '>' _ :: ts => ts
  | .punct '<' _ :: .punct '>' _ :: ts => ts
  | ts => ts

/-- The names in a path without generic arguments, from a name on. The bound on the number of names
is the number of tokens. -/
def pathNames? : Nat → List Token → Option (List String)
  | fuel + 1, .word id :: ts =>
    match dropEmptyArguments ts with
    | [] => some [id.text]
    | .punct ':' true :: .punct ':' _ :: rest => (pathNames? fuel rest).map (id.text :: ·)
    | _ => none
  | _, _ => none

/-- The tokens without a path separator at their start. -/
def dropLeadingSeparator : List Token → List Token
  | .punct ':' true :: .punct ':' _ :: ts => ts
  | ts => ts

/-- The type is spelled as the 64-bit integer. -/
def isKeyType (type : List Token) : Bool :=
  match pathNames? type.length (dropLeadingSeparator type) with
  | some [only] => only = "i64"
  | some [root, module, name] => root ∈ ["std", "core"] && module = "primitive" && name = "i64"
  | _ => false

/-! ## The check -/

/-- The fault of a struct with the given mapping, which may be none. -/
def keyFault? (decl : StructDecl) (mapping : Option RowMapping) : Option DeclarationFault :=
  match decl.fields, mapping.bind RowMapping.key with
  | .named fields, some key =>
    match fields.find? fun f => f.ident = key.field with
    | some f => if isKeyType f.type then none else some (.keyType key.field.name)
    | none => none
  | _, _ => none

/-- The fault of a struct. -/
def structFault? (decl : StructDecl) : List Warning × Option DeclarationFault :=
  let report := mappingOfStruct decl
  (report.warnings,
    match report.result with
    | .error cause => some (.mapping cause)
    | .ok mapping => keyFault? decl mapping)

/-- The tokens are one declaration of a struct, an enum or a union. -/
def isTypeDeclaration (ts : List Token) : Bool :=
  [structItem, enumItem, unionItem].any fun f => isForm (marked f) ts

/-- The fault of a declaration, with the warnings of its check. -/
def declarationFault? (ts : List Token) : List Warning × Option DeclarationFault :=
  match structOfTokens? ts with
  | some decl => structFault? decl
  | none => ([], some (if isTypeDeclaration ts then .notAStruct else .notAType))

end TaggedRows
