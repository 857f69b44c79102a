import TaggedRows.FilePath

/-!
# File trees

A tree of directories and files without links, and a current directory in it. An entry stands at a
*location*, the names from the root of the tree down to it. Paths are resolved the way an operating
system does it: piece by piece, each piece in a directory.
-/

namespace TaggedRows

/-- Why a file operation fails. -/
inductive IoCause where
  | notFound
  | notADirectory
  | isADirectory
  | invalidUtf8
  deriving DecidableEq, Repr

namespace IoCause

def message : IoCause → String
  | notFound => "No such file or directory (os error 2)"
  | notADirectory => "Not a directory (os error 20)"
  | isADirectory => "Is a directory (os error 21)"
  | invalidUtf8 => "stream did not contain valid UTF-8"

end IoCause

/-- The content of a file: text, or bytes that are no text. -/
inductive FileContent where
  | text (text : String)
  | binary (bytes : List UInt8)
  deriving DecidableEq, Repr

namespace FileContent

/-- Bytes as text where they are valid UTF-8. -/
def ofBytes (bytes : List UInt8) : FileContent :=
  match String.fromUTF8? ⟨bytes.toArray⟩ with
  | some t => .text t
  | none => .binary bytes

end FileContent

/-- The names from the root down to an entry. -/
abbrev Location := List String

inductive Entry where
  | directory
  | file (content : FileContent)
  deriving DecidableEq, Repr

structure FileTree where
  /-- All entries but the root. -/
  entries : List (Location × Entry)
  /-- Where relative paths begin. -/
  current : Location
  deriving Repr

namespace FileTree

/-- An empty current directory with the given name. -/
def empty (name : String) : FileTree := ⟨[([name], .directory)], [name]⟩

/-- The entry at a location; the root is a directory. -/
def lookup? (tree : FileTree) (loc : Location) : Option Entry :=
  if loc = [] then some .directory else tree.entries.lookup loc

/-- Puts an entry at a location, in the place of the one there. -/
def put (tree : FileTree) (loc : Location) (entry : Entry) : FileTree :=
  { tree with entries := tree.entries.filter (·.1 ≠ loc) ++ [(loc, entry)] }

/-- Takes the entry at a location away. -/
def remove (tree : FileTree) (loc : Location) : FileTree :=
  { tree with entries := tree.entries.filter (·.1 ≠ loc) }

/-! ## Resolution -/

/-- One step from a location by a piece of a path. -/
def step (tree : FileTree) (loc : Location) (piece : String) : Except IoCause Location :=
  match tree.lookup? loc with
  | none => .error .notFound
  | some (.file _) => .error .notADirectory
  | some .directory =>
    if piece = "" ∨ piece = "." then .ok loc
    else if piece = ".." then .ok loc.dropLast
    else if (tree.lookup? (loc ++ [piece])).isSome then .ok (loc ++ [piece])
    else .error .notFound

/-- The pieces of a path between its slashes. -/
def piecesOf (path : String) : List String :=
  Text.piecesOf '/' path

/-- Where the resolution of a path begins. -/
def start (tree : FileTree) (path : String) : Location :=
  if path.startsWith "/" then [] else tree.current

/-- The location of the entry that a path leads to. -/
def resolve (tree : FileTree) (path : String) : Except IoCause Location :=
  if path = "" then .error .notFound
  else (piecesOf path).foldlM tree.step (tree.start path)

/-- The entry that a path leads to. -/
def find (tree : FileTree) (path : String) : Except IoCause (Location × Entry) :=
  match tree.resolve path with
  | .error e => .error e
  | .ok loc =>
    match tree.lookup? loc with
    | some entry => .ok (loc, entry)
    | none => .error .notFound

def isDirectory (tree : FileTree) (path : String) : Bool :=
  match tree.find path with
  | .ok (_, .directory) => true
  | _ => false

def isFile (tree : FileTree) (path : String) : Bool :=
  match tree.find path with
  | .ok (_, .file _) => true
  | _ => false

/-! ## Reading and writing -/

/-- The text of a file. -/
def readText (tree : FileTree) (path : String) : Except IoCause String :=
  match tree.find path with
  | .error e => .error e
  | .ok (_, .directory) => .error .isADirectory
  | .ok (_, .file (.text t)) => .ok t
  | .ok (_, .file (.binary _)) => .error .invalidUtf8

/-- The names in a directory. -/
def list (tree : FileTree) (path : String) : Except IoCause (List String) :=
  match tree.find path with
  | .error e => .error e
  | .ok (_, .file _) => .error .notADirectory
  | .ok (loc, .directory) =>
    .ok (tree.entries.filterMap fun (at_, _) =>
      match at_.getLast? with
      | some name => if at_.dropLast = loc then some name else none
      | none => none)

/-- Where a write to a path goes: the entry there, or a new name in an existing directory. -/
def destination (tree : FileTree) (path : String) : Except IoCause Location :=
  match tree.find path with
  | .ok (_, .directory) => .error .isADirectory
  | .ok (loc, .file _) => .ok loc
  | .error .notFound =>
    if path = "" then .error .notFound
    else
      let pieces := piecesOf path
      match pieces.dropLast.foldlM tree.step (tree.start path) with
      | .error e => .error e
      | .ok dir =>
        match pieces.getLast? with
        | none => .error .notFound
        | some name =>
          if name = "" then .error .isADirectory
          else match tree.lookup? dir with
            | some .directory => .ok (dir ++ [name])
            | some (.file _) => .error .notADirectory
            | none => .error .notFound
  | .error e => .error e

/-- Writes a text to a path, in the place of any content there. -/
def writeText (tree : FileTree) (path : String) (text : String) : Except IoCause FileTree :=
  (tree.destination path).map fun loc => tree.put loc (.file (.text text))

/-! ## Setting a tree up -/

/-- The location that a path names, whether or not something is there. -/
def locate (tree : FileTree) (path : String) : Location :=
  (piecesOf path).foldl
    (fun loc piece =>
      if piece = "" ∨ piece = "." then loc
      else if piece = ".." then loc.dropLast
      else loc ++ [piece])
    (tree.start path)

/-- Makes a directory and those above it. -/
def makeDirectories (tree : FileTree) (loc : Location) : FileTree :=
  (List.range (loc.length + 1)).foldl
    (fun tree n =>
      if (tree.lookup? (loc.take n)).isSome then tree else tree.put (loc.take n) .directory)
    tree

/-- Puts a file at a path and makes the directories above it. -/
def install (tree : FileTree) (path : String) (content : FileContent) : FileTree :=
  let loc := tree.locate path
  (tree.makeDirectories loc.dropLast).put loc (.file content)

/-- The paths of all files below the current directory, in order. -/
def filePaths (tree : FileTree) : List String :=
  let paths := tree.entries.filterMap fun (loc, entry) =>
    match entry with
    | .file _ =>
      if tree.current.isPrefixOf loc then
        some ("/".intercalate (loc.drop tree.current.length))
      else none
    | .directory => none
  paths.mergeSort (fun a b => a ≤ b)

end FileTree

end TaggedRows
