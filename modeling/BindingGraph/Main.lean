import BindingGraph.Console.Run
import BindingGraph.Console.Usage

/-!
# The program

The outer layer. The part of the disk that an invocation can look at is read into a file tree, the
invocation runs on the tree, the files that it has made are written, and what it prints is
printed. Only a session is carried out line by line, so that each line is answered before the next
one is read.
-/

namespace BindingGraph.Main

open Console
open Report (Output Presentation)

/-! ## The disk -/

/-- What the disk holds at a location. Links are followed; what cannot be read is not there. -/
def readEntry? (place : Location) : IO (Option Entry) := do
  try
    let path ← IO.FS.realPath (pathOfLocation place).text
    match (← path.metadata).type with
    | .dir => return some .directory
    | .file => return some (.file (← IO.FS.readBinFile path).data.toList)
    | _ => return none
  catch _ => return none

/-- Add what the disk holds at a location. -/
def addEntry (tree : FileTree) (place : Location) : IO FileTree := do
  match ← readEntry? place with
  | some entry => return tree.put place entry
  | none => return tree

/-- Add everything that the parts of a path lead through, from a location on. -/
def addParts (tree : FileTree) (place : Location) : List String → IO FileTree
  | [] => return tree
  | part :: parts =>
    if FilePath.isTrivial part then addParts tree place parts
    else if part = ".." then addParts tree place.dropLast parts
    else do addParts (← addEntry tree (place ++ [part])) (place ++ [part]) parts

/-- Add what an absolute path leads to, with the graph files in it if that is a directory. -/
def addGraphs (tree : FileTree) (path : FilePath) : IO FileTree := do
  let mut tree ← addParts tree [] path.parts
  if tree.isDirectory path then
    if let .ok place := tree.locate path then
      let directory ← IO.FS.realPath (pathOfLocation place).text
      for entry in ← directory.readDir do
        if Workspace.isGraphName entry.fileName then
          tree ← addEntry tree (place ++ [entry.fileName])
  return tree

/-- The part of the disk that an invocation can look at. -/
def readDisk (invocation : Invocation) : IO FileTree := do
  let current := ((← IO.currentDir).toString.splitOn "/").filter (· ≠ "")
  let directory := pathOfLocation current
  let mut tree ← addParts { current } [] current
  for folder in Workspace.ancestors directory Workspace.maxParents do
    let marker := folder.child Workspace.markerName
    tree ← addParts tree [] (marker.child Workspace.configurationName).parts
  match ((Workspace.Opened.source directory (invocation.graphs.map .ofText)).run tree).1 with
  | .ok (path, _) => addGraphs tree path
  | .error _ => return tree

/-- Write what an invocation has made, directories before what is in them. -/
def writeDisk (before after : FileTree) : IO Unit := do
  let made := after.entries.filter fun (place, entry) => before.get? place ≠ some entry
  for (place, entry) in made.mergeSort fun a b => decide (a.1.length ≤ b.1.length) do
    let path := (pathOfLocation place).text
    match entry with
    | .directory => IO.FS.createDir path
    | .file bytes => IO.FS.writeBinFile path ⟨bytes.toArray⟩

/-! ## The streams -/

/-- Print to both streams. -/
def print (output : Output) : IO Unit := do
  let out ← IO.getStdout
  let err ← IO.getStderr
  out.putStr output.out
  out.flush
  err.putStr output.err
  err.flush

/-- The bytes of the next line of input with its end, or nothing where the input ends. -/
def readLine (input : IO.FS.Stream) : IO (List UInt8) := do
  let mut line := #[]
  repeat
    let next := (← input.read 1).data
    line := line ++ next
    if next.isEmpty || next.contains 10 then break
  return line.toList

/-- A session with whoever writes the input. -/
def converse (view : Presentation) (catalog : Catalog) (prompting : Bool) : IO Bool := do
  let input ← IO.getStdin
  repeat
    print (prompt prompting)
    match Text.decodeLines (← readLine input) with
    | [] => break
    | line :: _ =>
      match turn view catalog line with
      | .ok (some output) => print output
      | .ok none => break
      | .error failure => do
        print (Report.failure view failure.message)
        return false
  return true

/-! ## Running -/

/-- Carry out an invocation. Whether it succeeds is the answer. -/
def perform (invocation : Invocation) : IO Bool := do
  let surroundings : Surroundings :=
    { noColor := (← IO.getEnv "NO_COLOR").isSome
      color := ← IO.getEnv "TANGLE_COLOR"
      ansi := ← (← IO.getStdout).isTty }
  let view := invocation.presentation surroundings
  let tree ← readDisk invocation
  match invocation.command with
  | some (.repl timeoutMillis quiet) =>
    let opened := openGraphs (pathOfLocation tree.current) invocation.graphs timeoutMillis
    match (opened.run tree).1 with
    | .ok opened => converse view opened.catalog (prompts view quiet)
    | .error error => do
      print (Report.failure view error.message)
      return false
  | _ =>
    let (result, after) := (invocation.run surroundings).run tree
    writeDisk tree after
    print result.output
    return result.succeeded

end BindingGraph.Main

open BindingGraph in
/-- The exit code is zero if the invocation succeeds, one if it fails and two if there is none. -/
def main (arguments : List String) : IO UInt32 := do
  match Console.Invocation.ofArguments arguments with
  | .ok invocation => return if ← Main.perform invocation then 0 else 1
  | .error error =>
    if error.isRequest then
      Main.print (.lines [error.text])
      return 0
    else
      IO.eprintln error.text
      return 2
