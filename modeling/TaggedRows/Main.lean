import TaggedRows.CommandLine

/-!
# The command

The command looks at the files that its arguments name, runs on them as `CommandLine.run` says, and
writes the file of a completed run. Nothing is decided here.
-/

namespace TaggedRows.Main

/-- The path of a location. -/
def pathOf (loc : Location) : String := "/" ++ "/".intercalate loc

/-- The entry at a location, with the content of a file where that is asked for. -/
def entryAt (loc : Location) (isRead : Bool) : IO (Option Entry) := do
  let path := (← IO.currentDir) / pathOf loc
  if ← path.isDir then return some .directory
  else if !(← path.pathExists) then return none
  else if !isRead then return some (.file (.binary []))
  else
    try return some (.file (.ofBytes (← IO.FS.readBinFile path).toList))
    catch _ => return none

/-- Puts the entry at a location into a tree. -/
def observe (tree : FileTree) (loc : Location) (isRead : Bool) : IO FileTree := do
  match ← entryAt loc isRead with
  | some entry => return tree.put loc entry
  | none => return tree

/-- Puts what a path leads to into a tree: everything on the way, and the entries of a directory. -/
def observePath (tree : FileTree) (path : String) : IO FileTree := do
  let loc := tree.locate path
  let tree ← (List.range loc.length).foldlM
    (fun tree n => observe tree (loc.take (n + 1)) (n + 1 = loc.length)) tree
  if tree.lookup? loc ≠ some .directory then return tree
  else
    let entries ← ((← IO.currentDir) / pathOf loc).readDir
    entries.foldlM
      (fun tree entry =>
        let loc := loc ++ [entry.fileName]
        if (tree.lookup? loc).isSome then return tree
        else observe tree loc (FilePath.isSource entry.fileName))
      tree

/-- The tree of the files that the arguments name. -/
def observed (args : List String) : IO FileTree := do
  let current := (FileTree.piecesOf (← IO.currentDir).toString).filter (· ≠ "")
  let tree ← observePath ⟨[], current⟩ "."
  match CommandLine.Arguments.ofList args with
  | .error _ => return tree
  | .ok arguments =>
    let tree ← arguments.config.toList.foldlM observePath tree
    match arguments.configuration tree with
    | .error _ => return tree
    | .ok config =>
      let tree ← config.inputList.foldlM observePath tree
      observePath tree (config.outputPath tree)

/-- What is printed where the arguments ask for it or cannot be used. -/
def usage : String :=
  "Usage: dbgen [--type TYPES] [--output FILE] [--config FILE] [--runtime-path PATH] " ++
    "[--verbose] [INPUTS]..."

def warn (w : Warning) : IO Unit :=
  IO.eprintln ("warning: " ++ w.message ++ ((w.type?.map (" " ++ ·)).getD ""))

/-- Runs the command, and gives its exit code. -/
def command (args : List String) : IO UInt32 := do
  let (warnings, ending) := CommandLine.run (← observed args) args
  warnings.forM warn
  match ending with
  | .refused r =>
    if r.exitCode = 0 then IO.println usage else IO.eprintln usage
    return r.exitCode.toUInt32
  | .failed message =>
    IO.eprintln ("error: " ++ message)
    return 1
  | .completed outcome =>
    IO.FS.writeFile outcome.output outcome.unit.source
    return 0

end TaggedRows.Main

def main (args : List String) : IO UInt32 := TaggedRows.Main.command args
