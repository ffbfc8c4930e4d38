import SchemaForge.Command.Run

/-!
# `SchemaForge.Main` — the command line

A command is a function on the files it can see. Here those files are read from the disk before it,
and the files that it changed are written back after it.

## Contents
- **Looking.** `observe`, `observeAll`.
- **Writing.** `store`.
- **The program.** `main`.
-/

namespace SchemaForge.Main

/-- A location as the file system writes it. -/
def place (location : Location) : String := Route.shown "" location

/-- Adds what stands on the way to a location, and at it, to a tree. -/
def observe (tree : FileTree) (location : Location) : IO FileTree := do
  let root ← IO.currentDir
  let mut tree := tree
  for length in List.range location.length do
    let here := location.take (length + 1)
    let path := root / place here
    if ← path.isDir then
      tree := tree.withDirectories [] here
    else if ← path.pathExists then
      let content ← IO.FS.readBinFile path
      return tree.put here (.file ((String.fromUTF8? content).getD ""))
    else return tree
  return tree

/-- The files that a command line names, with the directories they stand in. -/
def observeAll (directory : Location) (words : List String) : IO FileTree := do
  let surroundings : Command.Surroundings := { tree := .empty, directory }
  let places := ((Command.Given.read? words).map Command.Given.places).getD []
  (places.map surroundings.locate).foldlM observe .empty

/-- Writes a file in one piece: under another name first, and then in the place of what is there. -/
def store (location : Location) (text : String) : IO Unit := do
  let directory := place location.dropLast
  let passing := directory ++ "/." ++ location.getLast?.getD "" ++ ".tmp"
  IO.FS.createDirAll directory
  IO.FS.writeFile passing text
  IO.FS.rename passing (place location)

end SchemaForge.Main

/-- Runs a command line. -/
def main (words : List String) : IO UInt32 := do
  let directory := SchemaForge.Route.ofText (← IO.currentDir).toString
  let tree ← SchemaForge.Main.observeAll directory words
  let report := SchemaForge.Command.run { tree, directory } words
  for (location, text) in tree.changes report.tree do
    SchemaForge.Main.store location text
  match report.outcome with
  | .helped => IO.println SchemaForge.Command.usage
  | .misused => IO.eprintln SchemaForge.Command.usage
  | _ => IO.eprint (report.shown "" (← (← IO.getStderr).isTty))
  return report.outcome.status
