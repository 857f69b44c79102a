import TaggedRows.FileTree

/-!
# Failures and warnings of a generation run

Every failure has a cause of its own; its wording is in `Failure.message` alone. A run that goes on
in spite of something reports a `Warning`. A `Report` carries the warnings of a computation whether
or not it fails.
-/

namespace TaggedRows

/-- What is wrong with a tag attribute, which should hold one string literal. -/
inductive AttributeFault where
  /-- There is no argument at all. -/
  | bare
  /-- A value is assigned instead. -/
  | assigned
  | empty
  | notAString
  /-- Something follows the literal. -/
  | surplus
  deriving DecidableEq, Repr

namespace AttributeFault

def message : AttributeFault → String
  | bare => "expected attribute arguments in parentheses: #[db(...)]"
  | assigned => "expected parentheses: #[db(...)]"
  | empty => "unexpected end of input, expected string literal"
  | notAString => "expected string literal"
  | surplus => "unexpected token"

end AttributeFault

/-- Why a generation run stops. -/
inductive Failure where
  | io (path : String) (cause : IoCause)
  /-- A source file is no valid source text. -/
  | parse (path : String)
  | noSources (path : String)
  /-- The input files lie in more than one directory. -/
  | mixedDirectories (first other : String)
  /-- A file with mapped structs cannot be named as a module. -/
  | invalidModuleName (path : String)
  | invalidAttribute (type field : String) (fault : AttributeFault)
  | duplicateKey (type first second : String)
  /-- A type has stored fields, and none names the table. -/
  | missingTable (type : String)
  | invalidRuntimePath (path : String)
  /-- The configuration file does not hold a configuration. -/
  | config
  deriving DecidableEq, Repr

namespace Failure

def message : Failure → String
  | io path cause => "I/O error on '" ++ path ++ "': " ++ cause.message
  | parse path => "parsing '" ++ path ++ "'"
  | noSources path => path ++ ": no Rust source files"
  | mixedDirectories first other =>
    "input files must belong to a single module directory, found '" ++ first ++ "' and '" ++
      other ++ "'"
  | invalidModuleName path => "'" ++ path ++ "': file name is not a valid module name"
  | invalidAttribute type field fault =>
    "invalid #[db] attribute on " ++ type ++ "." ++ field ++ ": " ++ fault.message
  | duplicateKey type first second =>
    "type " ++ type ++ " has more than one key field: " ++ first ++ " and " ++ second
  | missingTable type => "type " ++ type ++ " has sql fields but no table tag"
  | invalidRuntimePath path => "invalid runtime path '" ++ path ++ "'"
  | config => "config error"

end Failure

/-- What a run reports and goes on. -/
inductive Warning where
  | genericStruct (type : String)
  | typeNotFound (type : String)
  /-- The generated code does not parse, so it is written as plain tokens. -/
  | invalidCode
  /-- How to find out why it does not. -/
  | invalidCodeHint
  deriving DecidableEq, Repr

namespace Warning

def message : Warning → String
  | genericStruct _ => "Skipping generic struct; generated impls cannot name its parameters"
  | typeNotFound _ => "Requested type not found or has no sql fields"
  | invalidCode => "Internal error: invalid Rust generated; writing unformatted output"
  | invalidCodeHint => "Compile the including crate to analyze the error"

/-- The type that a warning is about. -/
def type? : Warning → Option String
  | genericStruct type => some type
  | typeNotFound type => some type
  | _ => none

end Warning

/-- A result together with the warnings on the way to it. -/
structure Report (α : Type) where
  warnings : List Warning
  result : Except Failure α

namespace Report

variable {α β : Type}

protected def pure (a : α) : Report α := ⟨[], .ok a⟩

def fail (e : Failure) : Report α := ⟨[], .error e⟩

def warn (w : Warning) : Report Unit := ⟨[w], .ok ()⟩

def ofExcept (r : Except Failure α) : Report α := ⟨[], r⟩

/-- Goes on with the result, and keeps the warnings of both parts in order. -/
protected def bind (r : Report α) (f : α → Report β) : Report β :=
  match r.result with
  | .error e => ⟨r.warnings, .error e⟩
  | .ok a => ⟨r.warnings ++ (f a).warnings, (f a).result⟩

instance : Monad Report where
  pure := Report.pure
  bind := Report.bind

end Report

end TaggedRows
