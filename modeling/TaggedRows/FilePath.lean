import TaggedRows.Text.Split

/-!
# Paths as texts

Lexical operations on slash-separated paths. A path is kept as the text it was given as; its
*components* are the names between slashes, without empty ones and without dots after the first
place. Every component knows where it ends in the text, so that a parent is a part of the text.
-/

namespace TaggedRows

inductive PathComponent where
  | root
  /-- A dot at the start of the path. -/
  | here
  | up
  | name (text : String)
  deriving DecidableEq, Repr

/-- A component and the length of the path text up to its end. -/
structure PlacedComponent where
  component : PathComponent
  stop : Nat

namespace FilePath

/-- The components of the given pieces. `first` says whether a dot is still a component, and
`start` is where the next piece starts. -/
def placeComponents : Bool → Nat → List (List Char) → List PlacedComponent
  | _, _, [] => []
  | first, start, piece :: pieces =>
    let stop := start + piece.length
    let rest := placeComponents false (stop + 1) pieces
    if piece = [] then rest
    else if piece = ['.'] then if first then ⟨.here, stop⟩ :: rest else rest
    else if piece = ['.', '.'] then ⟨.up, stop⟩ :: rest
    else ⟨.name (String.ofList piece), stop⟩ :: rest

/-- The components of a path. -/
def components (path : String) : List PlacedComponent :=
  match path.toList with
  | '/' :: cs => ⟨.root, 1⟩ :: placeComponents false 1 (Text.pieces '/' cs)
  | cs => placeComponents true 0 (Text.pieces '/' cs)

/-- The last component, if it is a name. -/
def fileName? (path : String) : Option String :=
  match (components path).getLast? with
  | some ⟨.name text, _⟩ => some text
  | _ => none

/-- A name in front of its last dot and behind it. A dot at the very start counts for nothing. -/
def splitExtension (name : String) : String × Option String :=
  let cs := name.toList
  let after := (cs.reverse.takeWhile (· ≠ '.')).reverse
  let before := (cs.reverse.dropWhile (· ≠ '.')).reverse.dropLast
  if after.length = cs.length || before = [] then (name, none)
  else (String.ofList before, some (String.ofList after))

/-- The file name without its extension. -/
def stem? (path : String) : Option String :=
  (fileName? path).map fun name => (splitExtension name).1

def extension? (path : String) : Option String :=
  (fileName? path).bind fun name => (splitExtension name).2

/-- The path without its last component. The root has no parent. -/
def parent? (path : String) : Option String :=
  match (components path).reverse with
  | [] => none
  | ⟨.root, _⟩ :: _ => none
  | _ :: [] => some ""
  | _ :: previous :: _ => some (String.ofList (path.toList.take previous.stop))

/-- A path inside a directory. -/
def join (dir path : String) : String :=
  if path.startsWith "/" || dir.isEmpty then path
  else if dir.endsWith "/" then dir ++ path
  else dir ++ "/" ++ path

/-- The directory that a file is named in; the current one when the path names none. -/
def parentDir (path : String) : String :=
  match parent? path with
  | some "" => "."
  | some dir => dir
  | none => "."

/-- The file holds source text. -/
def isSource (path : String) : Bool :=
  extension? path = some "rs"

end FilePath

end TaggedRows
