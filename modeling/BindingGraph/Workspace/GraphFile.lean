import BindingGraph.Catalog
import BindingGraph.Record.Ledger
import BindingGraph.Workspace.Error

/-!
# Graph files

A graph file holds one record to a line. It is loaded as a graph named after the file; a directory
is loaded as the graphs of all its graph files, in the order of their names. A graph is saved by way
of a temporary file beside its own, so that a failure leaves the old contents as they were.
-/

namespace BindingGraph.Workspace

/-- Graphs with the warnings that loading them raised, each under the name of its graph. -/
structure LoadedGraphs where
  graphs : List NamedGraph := []
  warnings : List (String × LoadWarning) := []

/-- Both together. -/
def LoadedGraphs.append (first second : LoadedGraphs) : LoadedGraphs :=
  ⟨first.graphs ++ second.graphs, first.warnings ++ second.warnings⟩

/-- A single graph with its warnings. -/
def LoadedGraphs.single (name : String) (loaded : LoadedGraph) : LoadedGraphs :=
  ⟨[⟨name, loaded.graph⟩], loaded.warnings.map fun warning => (name, warning)⟩

/-! ## Loading -/

/-- The extension of graph files. -/
def graphExtension : String := "jsonl"

/-- The name of the graph in a file: the stem of the file's name. -/
def graphName (path : FilePath) : String := path.stem?.getD path.text

/-- Load a graph file: its name and its contents. -/
def loadFile (path : FilePath) : Action (String × LoadedGraph) := do
  let lines ← Action.onFiles (.graphFile path) (FileAction.readLines path)
  return (graphName path, LoadedGraph.ofLines lines)

/-- Load a graph file as the only graph. -/
def loadSingle (path : FilePath) : Action LoadedGraphs := do
  let (name, loaded) ← loadFile path
  return .single name loaded

/-- Load graph files in the given order. -/
def loadFiles : List FilePath → Action LoadedGraphs
  | [] => return {}
  | path :: paths => do
    let first ← loadSingle path
    let others ← loadFiles paths
    return first.append others

/-- Whether a file name is that of a graph file. -/
def isGraphName (name : String) : Bool := (FilePath.splitName name).2 = some graphExtension

/-- The names of the graph files in a directory, in order. -/
def graphFileNames (files : FileTree) (directory : FilePath) (names : List String) : List String :=
  (names.filter fun name => isGraphName name && files.isFile (directory.child name)).mergeSort
    fun a b => decide (a ≤ b)

/-- Load every graph file in a directory. -/
def loadDirectory (directory : FilePath) : Action LoadedGraphs := do
  let names ← Action.onFiles (.graphFile directory) (FileAction.readDirectory directory)
  match graphFileNames (← get) directory names with
  | [] => throw (.noGraphs directory)
  | names => loadFiles (names.map directory.child)

/-- Load what a path leads to: a single graph file or a directory of them. -/
def loadFrom (path : FilePath) : Action LoadedGraphs := do
  if ← Action.ask (·.isFile path) then loadSingle path else loadDirectory path

/-! ## Saving -/

/-- The record of each node of a graph, in declaration order. -/
def records (graph : DependencyGraph) : List Record :=
  graph.bindings.map fun (key, dependencies) => ⟨key, dependencies⟩

/-- The text of a graph file: one record to a line. -/
def graphFileText (graph : DependencyGraph) : String :=
  String.join ((records graph).map fun record => record.text ++ "\n")

/-- Where a graph is written before it replaces the file at a path. -/
def temporaryPath (path : FilePath) : FilePath := path.withExtension "tmp"

/-- Save a graph. If that fails, the temporary file is removed as far as possible. -/
def saveFile (path : FilePath) (graph : DependencyGraph) : Action Unit := do
  let temporary := temporaryPath path
  tryCatch
    (do
      Action.onFiles (.graphFile temporary)
        (FileAction.write temporary (Text.encodeUtf8 (graphFileText graph)))
      Action.onFiles (.graphFile path) (FileAction.moveFile temporary path))
    fun error => do
      tryCatch (Action.onFiles .file (FileAction.removeFile temporary)) fun _ => pure ()
      throw error

end BindingGraph.Workspace
