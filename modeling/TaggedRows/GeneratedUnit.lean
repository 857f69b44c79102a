import TaggedRows.Accessor.Layout
import TaggedRows.SourceSet
import TaggedRows.TypeList
import TaggedRows.Text.Lowercase

/-!
# Generated units

A unit is the outcome of one generation run: two comment lines that say where it comes from, an
import, and a block of accessors for each mapping. The blocks come in the order of the requested
types, or of the sources when none is requested. Code that is no valid file, which happens where
the path of the runtime cannot be imported from, is written as plain tokens.
-/

namespace TaggedRows

structure GeneratedUnit where
  source : String
  /-- The code is laid out, and not written as plain tokens. -/
  isFormatted : Bool
  /-- The qualified names of the types with a block. -/
  types : List String
  deriving DecidableEq, Repr

namespace GeneratedUnit

/-! ## The first lines -/

/-- A text with spaces for its line breaks. -/
def singleLine (text : String) : String :=
  String.ofList (text.toList.map fun c => if c = '\r' ∨ c = '\n' then ' ' else c)

/-- The comment lines in front of a unit, and the empty line behind them. -/
def banner (invocation moduleName : String) : String :=
  generatedMark ++ (if invocation = "" then "" else " " ++ singleLine invocation) ++
    "'; DO NOT EDIT\n// module: " ++ singleLine moduleName ++ "\n\n"

/-! ## Assembling -/

/-- The code is the text of a file. -/
def isFile (code : String) : Bool :=
  (Token.lex? code).any fun ts => Source.isForm Source.file ts

/-- A text that ends in a line break. -/
def endLine (text : String) : String :=
  if text.endsWith "\n" then text else text ++ "\n"

/-- The unit with blocks for the given mappings. -/
def ofMappings (runtime : RuntimePath) (invocation moduleName : String)
    (mappings : List RowMapping) : Report GeneratedUnit :=
  let plain := Token.print (tokens runtime mappings)
  let unit (code : String) (isFormatted : Bool) : GeneratedUnit :=
    ⟨banner invocation moduleName ++ endLine code, isFormatted,
      mappings.map RowMapping.qualifiedName⟩
  if isFile plain then return unit (layout runtime mappings).render true
  else do
    Report.warn .invalidCode
    Report.warn .invalidCodeHint
    return unit plain false

/-- The mappings of the requested types, one after the other. -/
def requested (set : SourceSet) : List String → Report (List RowMapping)
  | [] => return []
  | name :: names => do
    let found ← set.scan (some name)
    if found.isEmpty then Report.warn (.typeNotFound name)
    let others ← requested set names
    return found ++ others

/-- The mappings for a list of requested types; all when it names none. -/
def selected (set : SourceSet) (types : List String) : Report (List RowMapping) :=
  match TypeList.ofNames types with
  | [] => set.scan none
  | names => requested set names

/-- Reads the path of the runtime. -/
def readRuntimePath (text : String) : Except Failure RuntimePath :=
  match RuntimePath.parse? text with
  | some path => .ok path
  | none => .error (.invalidRuntimePath text)

/-- Generates the unit for the requested types. -/
def generate (set : SourceSet) (runtimePath invocation : String) (types : List String) :
    Report GeneratedUnit := do
  let runtime ← Report.ofExcept (readRuntimePath runtimePath)
  let mappings ← selected set types
  ofMappings runtime invocation set.name mappings

/-! ## Where units go -/

/-- The file that a unit for the requested types is written to, where none is configured. -/
def defaultFileName (types : List String) : String :=
  match TypeList.ofNames types with
  | [] => "db_generated.rs"
  | first :: _ => "db_generated_" ++ Text.toLowercase first ++ ".rs"

/-- The file for a unit in a directory. -/
def defaultPath (dir : String) (types : List String) : String :=
  FilePath.join dir (defaultFileName types)

end GeneratedUnit

end TaggedRows
