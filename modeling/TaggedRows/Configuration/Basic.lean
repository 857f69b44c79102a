import TaggedRows.Configuration.Node
import TaggedRows.GeneratedUnit

/-!
# Configurations and runs

A configuration describes one generation run: where the sources are, which types are wanted, where
the unit goes and how it reaches the runtime. `Configuration.run` reads the sources from a file
tree, generates the unit and writes it. Nothing is written unless every earlier step succeeds.
-/

namespace TaggedRows

structure Configuration where
  /-- One directory, or files of one directory; none for the current directory. -/
  inputs : List String
  /-- The wanted types; none for all. -/
  types : List String
  /-- The file for the unit; by default it lies with the sources. -/
  output : Option String
  runtimePath : String
  deriving DecidableEq, Repr

namespace Configuration

def default : Configuration := ⟨[], [], none, RuntimePath.defaultText⟩

/-! ## Reading -/

/-- A scalar of any kind is a text. -/
def textOf? : Node → Option String
  | .scalar text _ _ => some text
  | _ => none

/-- A list of texts; nothing at all is the empty list. -/
def textsOf? : Node → Option (List String)
  | .sequence nodes => nodes.mapM textOf?
  | .scalar "" true _ => some []
  | _ => none

/-- The spellings of a missing value. -/
def nullSpellings : List String := ["null", "Null", "NULL", "~"]

/-- A text or its absence, which is nothing at all or one of the spellings of a missing value. -/
def optionalOf? : Node → Option (Option String)
  | .scalar text false _ => some (some text)
  | .scalar text true (some false) => some (some text)
  | .scalar text true (some true) => if text ∈ nullSpellings then some none else none
  | .scalar text true none =>
    some (if text = "" ∨ text ∈ nullSpellings then none else some text)
  | _ => none

/-- The names of the fields. -/
inductive Field where
  | inputs | types | output | runtimePath
  deriving DecidableEq, Repr

/-- The field with a name; every other name is ignored. -/
def field? : String → Option Field
  | "inputs" => some .inputs
  | "types" => some .types
  | "output" => some .output
  | "runtime_path" => some .runtimePath
  | _ => none

/-- Sets a field. -/
def setField (config : Configuration) (value : Node) : Field → Option Configuration
  | .inputs => (textsOf? value).map fun inputs => { config with inputs }
  | .types => (textsOf? value).map fun types => { config with types }
  | .output => (optionalOf? value).map fun output => { config with output }
  | .runtimePath => (textOf? value).map fun runtimePath => { config with runtimePath }

/-- Sets the fields of the entries, given those that are set already. No field is set twice. -/
def setEntries (config : Configuration) (seen : List Field) :
    List (Node × Node) → Option Configuration
  | [] => some config
  | (key, value) :: entries =>
    (textOf? key).bind fun name =>
      match field? name with
      | none => setEntries config seen entries
      | some f =>
        if f ∈ seen then none
        else (setField config value f).bind fun config => setEntries config (f :: seen) entries

/-- Reads a configuration; fields that are not there have their defaults. -/
def ofNode? : Node → Option Configuration
  | .mapping entries => setEntries default [] entries
  | .scalar "" true _ => some default
  | _ => none

/-- Reads the text of a configuration file. -/
def ofText? (text : String) : Option Configuration := (Node.ofText? text).bind ofNode?

/-- Reads a configuration file. -/
def load (tree : FileTree) (path : String) : Except Failure Configuration :=
  match tree.readText path with
  | .error cause => .error (.io path cause)
  | .ok text =>
    match ofText? text with
    | some config => .ok config
    | none => .error .config

/-! ## Paths -/

variable (config : Configuration) (tree : FileTree)

/-- The inputs; the current directory where none is given. -/
def inputList : List String := if config.inputs = [] then ["."] else config.inputs

/-- The input, if it is a single directory. -/
def singleDirectory? : Option String :=
  match config.inputList with
  | [only] => if tree.isDirectory only then some only else none
  | _ => none

/-- The directory that the sources lie in. -/
def sourceDirectory : String :=
  match config.singleDirectory? tree with
  | some dir => dir
  | none => FilePath.parentDir (config.inputList.head?.getD ".")

/-- The file for the unit. -/
def outputPath : String :=
  match config.output with
  | some path => path
  | none => GeneratedUnit.defaultPath (config.sourceDirectory tree) config.types

/-! ## Runs -/

/-- The sources of a run, without the file that it writes. -/
def sources : Except Failure SourceSet :=
  let output := config.outputPath tree
  match config.singleDirectory? tree with
  | some dir => SourceSet.ofDirectory tree dir (some output)
  | none => SourceSet.ofFiles tree config.inputList (some output)

/-- The unit of a run. -/
def generate (invocation : String) : Report GeneratedUnit := do
  let set ← Report.ofExcept (config.sources tree)
  GeneratedUnit.generate set config.runtimePath invocation config.types

/-- What a completed run has produced, and the tree after it. -/
structure Outcome where
  output : String
  unit : GeneratedUnit
  tree : FileTree

/-- Writes a unit. -/
def write (unit : GeneratedUnit) : Except Failure Outcome :=
  let output := config.outputPath tree
  match tree.writeText output unit.source with
  | .ok tree => .ok ⟨output, unit, tree⟩
  | .error cause => .error (.io output cause)

/-- Generates the unit and writes it. -/
def run (invocation : String) : Report Outcome := do
  let unit ← config.generate tree invocation
  Report.ofExcept (config.write tree unit)

end Configuration

end TaggedRows
