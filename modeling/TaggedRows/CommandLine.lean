import TaggedRows.Configuration.Basic

/-!
# The command line

Arguments are read from left to right. An option takes its value from behind an equals sign or, in
its short form, from the rest of the argument, and else waits for the next argument. What has been
given is settled when the next option, flag or the end comes. A refusal ends the reading where it
arises, and so does a request for help.

`CommandLine.run` reads the configuration file if one is named, lets the arguments override it, and
runs the configuration.
-/

namespace TaggedRows.CommandLine

/-- Why the arguments lead to no run. -/
inductive Refusal where
  | help
  | version
  | unknownArgument
  /-- A value is missing, or a path is empty. -/
  | invalidValue
  /-- An option is given twice. -/
  | repeatedArgument
  /-- A flag is given a value. -/
  | surplusValue
  deriving DecidableEq, Repr

namespace Refusal

/-- The exit code; a request for a text succeeds. -/
def exitCode : Refusal → Nat
  | help => 0
  | version => 0
  | _ => 2

end Refusal

/-- The options with a value. -/
inductive Setting where
  | types | output | config | runtimePath
  deriving DecidableEq, Repr

inductive Switch where
  | setting (s : Setting)
  | verbose
  | help
  | version
  deriving DecidableEq, Repr

namespace Switch

def ofLong? : String → Option Switch
  | "type" => some (.setting .types)
  | "output" => some (.setting .output)
  | "config" => some (.setting .config)
  | "runtime-path" => some (.setting .runtimePath)
  | "verbose" => some .verbose
  | "help" => some .help
  | "version" => some .version
  | _ => none

def ofShort? : Char → Option Switch
  | 'o' => some (.setting .output)
  | 'v' => some .verbose
  | 'h' => some .help
  | 'V' => some .version
  | _ => none

end Switch

/-! ## Reading arguments -/

/-- What the arguments say. -/
structure Arguments where
  types : Option String
  output : Option String
  config : Option String
  runtimePath : Option String
  isVerbose : Bool
  inputs : List String
  deriving DecidableEq, Repr

namespace Arguments

def empty : Arguments := ⟨none, none, none, none, false, []⟩

def setting (args : Arguments) : Setting → Option String
  | .types => args.types
  | .output => args.output
  | .config => args.config
  | .runtimePath => args.runtimePath

def put (args : Arguments) (value : String) : Setting → Arguments
  | .types => { args with types := some value }
  | .output => { args with output := some value }
  | .config => { args with config := some value }
  | .runtimePath => { args with runtimePath := some value }

/-- The setting is a path of a file, which is not empty. -/
def isPath (s : Setting) : Bool := s = .output || s = .config

/-- Sets an option, which may be done once. -/
def set (args : Arguments) (s : Setting) (value : String) : Except Refusal Arguments :=
  if (args.setting s).isSome then .error .repeatedArgument
  else if isPath s && value = "" then .error .invalidValue
  else .ok (args.put value s)

end Arguments

/-- What has been given and is not settled yet. -/
inductive Pending where
  | nothing
  /-- An option, and its value if that has come. -/
  | setting (s : Setting) (value : Option String)
  | inputs (paths : List String)
  deriving DecidableEq, Repr

structure Reading where
  args : Arguments
  pending : Pending
  deriving DecidableEq, Repr

namespace Reading

def start : Reading := ⟨.empty, .nothing⟩

variable (r : Reading)

/-- Settles what has been given. -/
def settle : Except Refusal Arguments :=
  match r.pending with
  | .nothing => .ok r.args
  | .setting _ none => .error .invalidValue
  | .setting s (some value) => r.args.set s value
  | .inputs paths =>
    if "" ∈ paths then .error .invalidValue
    else .ok { r.args with inputs := r.args.inputs ++ paths }

/-- A flag. -/
def flag (refusal : Option Refusal) : Except Refusal Reading := do
  let args ← r.settle
  match refusal with
  | some refusal => .error refusal
  | none =>
    if args.isVerbose then .error .repeatedArgument
    else return ⟨{ args with isVerbose := true }, .nothing⟩

/-- An option, with its value if that stands in the same argument. -/
def option (s : Setting) (value : Option String) : Except Refusal Reading := do
  let args ← r.settle
  match value with
  | none => return ⟨args, .setting s none⟩
  | some value => return ⟨← args.set s value, .nothing⟩

/-- A switch without a value of its own. -/
def switch : Switch → Except Refusal Reading
  | .setting s => r.option s none
  | .verbose => r.flag none
  | .help => r.flag (some .help)
  | .version => r.flag (some .version)

/-- An argument that begins with two dashes. -/
def long (body : List Char) : Except Refusal Reading :=
  let name := body.takeWhile (· ≠ '=')
  let value := if body.contains '=' then some (body.drop (name.length + 1)) else none
  match Switch.ofLong? (String.ofList name), value with
  | none, _ => .error .unknownArgument
  | some s, none => r.switch s
  | some (.setting s), some value => r.option s (some (String.ofList value))
  | some _, some _ => .error .surplusValue

/-- The letters behind a single dash. An option takes the rest as its value. -/
def short : List Char → Reading → Except Refusal Reading
  | [], r => .ok r
  | c :: cs, r =>
    match Switch.ofShort? c, cs with
    | none, _ => .error .unknownArgument
    | some (.setting s), [] => r.option s none
    | some (.setting s), '=' :: value => r.option s (some (String.ofList value))
    | some (.setting s), value => r.option s (some (String.ofList value))
    | some s, _ => (r.switch s).bind (short cs)

/-- An argument without dashes in front is a value if one is missing, and else an input. -/
def plain (isLiteral : Bool) (arg : String) : Except Refusal Reading :=
  match r.pending with
  | .inputs paths => .ok { r with pending := .inputs (paths ++ [arg]) }
  | .setting s none =>
    if isLiteral then .error .invalidValue
    else .ok { r with pending := .setting s (some arg) }
  | _ => r.settle.map fun args => ⟨args, .inputs [arg]⟩

/-- Reads arguments; behind two dashes alone all are inputs. -/
def run (isLiteral : Bool) : List String → Reading → Except Refusal Arguments
  | [], r => r.settle
  | arg :: args, r =>
    if isLiteral then (r.plain true arg).bind (run true args)
    else
      match arg.toList with
      | ['-', '-'] => run true args r
      | '-' :: '-' :: body => (r.long body).bind (run false args)
      | '-' :: c :: cs => (short (c :: cs) r).bind (run false args)
      | _ => (r.plain false arg).bind (run false args)

end Reading

/-- Reads the arguments. -/
def Arguments.ofList (args : List String) : Except Refusal Arguments :=
  Reading.run false args .start

/-! ## Runs -/

/-- Lets the arguments override a configuration. -/
def Arguments.override (args : Arguments) (config : Configuration) : Configuration where
  inputs := if args.inputs = [] then config.inputs else args.inputs
  types := (args.types.map TypeList.parse).getD config.types
  output := args.output.or config.output
  runtimePath := args.runtimePath.getD config.runtimePath

/-- The configuration of a run, or the text that says why there is none. -/
def Arguments.configuration (args : Arguments) (tree : FileTree) : Except String Configuration :=
  match args.config with
  | none => .ok (args.override .default)
  | some path =>
    match Configuration.load tree path with
    | .ok config => .ok (args.override config)
    | .error e => .error ("Failed to load config '" ++ path ++ "': " ++ e.message)

/-- How a command ends. -/
inductive Ending where
  | refused (r : Refusal)
  | failed (message : String)
  | completed (outcome : Configuration.Outcome)

/-- Runs a command on a file tree; also gives the warnings of the run. -/
def run (tree : FileTree) (args : List String) : List Warning × Ending :=
  match Arguments.ofList args with
  | .error r => ([], .refused r)
  | .ok arguments =>
    match arguments.configuration tree with
    | .error message => ([], .failed message)
    | .ok config =>
      let report := config.run tree (" ".intercalate args)
      (report.warnings,
        match report.result with
        | .ok outcome => .completed outcome
        | .error e => .failed e.message)

/-- The tree after a command. -/
def Ending.tree (before : FileTree) : Ending → FileTree
  | .completed outcome => outcome.tree
  | _ => before

end TaggedRows.CommandLine
