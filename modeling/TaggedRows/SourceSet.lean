import TaggedRows.RowMapping
import TaggedRows.Source.Item

/-!
# Source files and the structs in them

A source set is the files that make up the scope of one module. The paths of types are relative to
the module that includes the generated code: a file alone is that module itself; among several
files, `lib`, `main` and `mod` are, and every other file is a child module named by its stem.

`SourceSet.scan` gives the mappings of all structs that have one, in the order of the files and of
the text. A struct counts when it is declared at the top of a file or in inline modules. A file that
the generator wrote is told by its first line, and never read.
-/

namespace TaggedRows

/-- What every generated file begins with. -/
def generatedMark : String := "// generated by 'dbgen"

/-- The attribute that carries a tag. -/
def tagAttribute : String := "db"

/-- The text was written by the generator. -/
def isGenerated (text : String) : Bool :=
  generatedMark.toList.isPrefixOf text.toList

/-! ## The mapping of a struct -/

open Source

/-- The tag in an attribute; nothing if it is another attribute. -/
def tagOfAttribute? (a : Attribute) : Option (Except AttributeFault String) :=
  match a.content with
  | .word id :: rest =>
    if id = .plain tagAttribute then
      match rest with
      | [] => some (.error .bare)
      | .punct '=' _ :: _ => some (.error .assigned)
      | .opening _ :: args =>
        match args.dropLast with
        | [] => some (.error .empty)
        | [.literal ⟨.string value, _⟩] => some (.ok value)
        | .literal ⟨.string _, _⟩ :: _ => some (.error .surplus)
        | _ => some (.error .notAString)
      | _ => none
    else none
  | _ => none

/-- The tag of a field: the literals of all its tag attributes, separated by spaces. -/
def tagOfField (type : Ident) (f : FieldDecl) : Except Failure String := do
  let parts ← (f.attributes.filterMap tagOfAttribute?).mapM fun
    | .ok value => .ok value
    | .error fault => .error (.invalidAttribute type.name f.ident.name fault)
  return " ".intercalate parts

/-- The fields with the meaning of their tags. -/
def taggedFields (type : Ident) (fields : List FieldDecl) : Except Failure (List TaggedField) :=
  fields.mapM fun f => (tagOfField type f).map fun tag => ⟨f.ident, .ofTag tag⟩

/-- The mapping of a struct. Tuple, unit and generic structs have none; the last with a warning. -/
def mappingOfStruct (decl : StructDecl) : Report (Option RowMapping) :=
  match decl.fields with
  | .positional => pure none
  | .named fields =>
    match (taggedFields decl.ident fields).bind (RowMapping.ofFields decl.ident) with
    | .error e => .fail e
    | .ok none => pure none
    | .ok (some mapping) =>
      if decl.isGeneric then ⟨[.genericStruct decl.ident.name], .ok none⟩
      else pure (some mapping)

/-! ## Files -/

/-- A source file that has been read. -/
structure SourceFile where
  path : String
  items : List Item
  /-- The name of the child module that the file forms, if it does. -/
  module : Option String

structure SourceSet where
  /-- The name of the module, for the first lines of generated files. -/
  name : String
  dir : String
  files : List SourceFile

/-- Reads a text as exactly one name. -/
def identOfText? (text : String) : Option Ident :=
  match Token.lex? text with
  | some [.word id] => if id.isKeyword then none else some id
  | _ => none

/-- The identifier of the module with the given name, raw where it has to be. -/
def moduleIdent? (stem : String) : Option Ident :=
  (identOfText? stem).orElse fun _ => identOfText? ("r#" ++ stem)

/-- The modules that the types of a file are in. -/
def SourceFile.modulePrefix (file : SourceFile) : Except Failure (List Ident) :=
  match file.module with
  | none => .ok []
  | some stem =>
    match moduleIdent? stem with
    | some id => .ok [id]
    | none => .error (.invalidModuleName file.path)

/-- Reads the text of a file; `several` says whether files are child modules. -/
def SourceFile.ofText (several : Bool) (path text : String) : Except Failure SourceFile :=
  match parseFile? text with
  | none => .error (.parse path)
  | some items =>
    .ok ⟨path, items,
      if several then (FilePath.stem? path).filter fun stem => stem ∉ ["lib", "main", "mod"]
      else none⟩

/-! ## Scanning -/

/-- A struct with the inline modules around it. -/
structure PlacedStruct where
  modules : List Ident
  decl : StructDecl

/-- The structs among items and their inline modules, in the order of the text. -/
def placedStructs (modules : List Ident) : List Item → List PlacedStruct
  | [] => []
  | .struct decl :: items => ⟨modules, decl⟩ :: placedStructs modules items
  | .module id inner :: items =>
    placedStructs (modules ++ [id]) inner ++ placedStructs modules items
  | .other :: items => placedStructs modules items

/-- The struct passes a filter by name. -/
def PlacedStruct.named (wanted : Option String) (s : PlacedStruct) : Bool :=
  wanted.all (· = s.decl.ident.name)

/-- The mappings of structs, in their inline modules. -/
def mappingsOf : List PlacedStruct → Report (List RowMapping)
  | [] => pure []
  | s :: rest => do
    let mapping ← mappingOfStruct s.decl
    let mappings ← mappingsOf rest
    return (mapping.map (·.inModules s.modules)).toList ++ mappings

/-- The mappings in a file. The name of its module matters only if there are any. -/
def SourceFile.scan (wanted : Option String) (file : SourceFile) : Report (List RowMapping) := do
  let mappings ← mappingsOf ((placedStructs [] file.items).filter (·.named wanted))
  if mappings.isEmpty then return []
  let modulePrefix ← Report.ofExcept file.modulePrefix
  return mappings.map fun m => m.inModules (modulePrefix ++ m.modulePath)

namespace SourceSet

/-- The mappings of the structs in all files, or of those with the wanted name. -/
def scan (set : SourceSet) (wanted : Option String) : Report (List RowMapping) :=
  go set.files
where
  go : List SourceFile → Report (List RowMapping)
    | [] => pure []
    | file :: files => do
      let found ← file.scan wanted
      let rest ← go files
      return found ++ rest

/-! ## Building source sets -/

/-- Texts with their paths, without reading any file. -/
def ofTexts (name : String) (sources : List (String × String)) : Except Failure SourceSet := do
  let kept := sources.filter fun (_, text) => !isGenerated text
  let files ← kept.mapM fun (path, text) => SourceFile.ofText (1 < sources.length) path text
  return ⟨name, ".", files⟩

/-- The location of a path, if something is there. -/
def canonical? (tree : FileTree) (path : String) : Option Location :=
  (tree.resolve path).toOption

/-- Reads one of the files of a set; nothing if it is to be skipped. -/
def loadFile (tree : FileTree) (excluded : Option Location) (several : Bool) (path : String) :
    Except Failure (Option SourceFile) :=
  if excluded.isSome && canonical? tree path = excluded then .ok none
  else match tree.readText path with
    | .error cause => .error (.io path cause)
    | .ok text =>
      if isGenerated text then .ok none
      else (SourceFile.ofText several path text).map some

/-- Reads the files of a set, without the destination of the run and earlier generated files. -/
def load (tree : FileTree) (name dir : String) (paths : List String) (exclude : Option String)
    (several : Bool) : Except Failure SourceSet := do
  let excluded := exclude.bind (canonical? tree)
  let files := (← paths.mapM (loadFile tree excluded several)).filterMap id
  if files.isEmpty then .error (.noSources dir)
  else return ⟨name, dir, files⟩

/-- The name of a directory. -/
def directoryName (tree : FileTree) (dir : String) : String :=
  match canonical? tree dir with
  | some loc => loc.getLast?.getD "crate"
  | none => (FilePath.fileName? dir).getD "crate"

/-- The source files directly in a directory, in the order of their names. -/
def ofDirectory (tree : FileTree) (dir : String) (exclude : Option String) :
    Except Failure SourceSet :=
  match tree.list dir with
  | .error cause => .error (.io dir cause)
  | .ok names =>
    let names := names.mergeSort (fun a b => a ≤ b)
    let paths := (names.map (FilePath.join dir)).filter fun path =>
      tree.isFile path && FilePath.isSource path
    load tree (directoryName tree dir) dir paths exclude true

/-- The location of a directory, or its path where nothing is there. -/
def directoryKey (tree : FileTree) (dir : String) : Location ⊕ String :=
  match canonical? tree dir with
  | some loc => .inl loc
  | none => .inr dir

/-- The listed files, which must lie in one directory. Files without the extension are ignored. -/
def ofFiles (tree : FileTree) (paths : List String) (exclude : Option String) :
    Except Failure SourceSet :=
  match paths.filter FilePath.isSource with
  | [] => .error (.noSources (paths.head?.getD "."))
  | first :: others =>
    let dir := FilePath.parentDir first
    let key := directoryKey tree dir
    match others.find? fun other => directoryKey tree (FilePath.parentDir other) ≠ key with
    | some other => .error (.mixedDirectories first other)
    | none =>
      let name := (FilePath.stem? first).getD (directoryName tree dir)
      load tree name dir (first :: others) exclude (!others.isEmpty)

end SourceSet

end TaggedRows
