import BindingGraph.Files.FileTree
import BindingGraph.Yaml.Fault

/-!
# What can go wrong with a workspace

Files may be missing or unreadable, the workspace may not be there or be there already, its
configuration may be malformed, and there may be no graphs where they should be.
-/

namespace BindingGraph.Workspace

/-- Why a workspace cannot be used or made: a file of the workspace itself, or else a graph file or
a directory of them, cannot be read or written; there is no workspace here, or one already; its
configuration cannot be read; or its directory has no graph files. -/
inductive Error where
  | file (error : FileError)
  | notInitialized
  | alreadyInitialized (directory : FilePath)
  | configuration (fault : Yaml.Fault)
  | noGraphs (directory : FilePath)
  | graphFile (path : FilePath) (error : FileError)
  deriving DecidableEq

/-- The error in words. -/
def Error.message : Error → String
  | .file error => "IO error: " ++ error.message
  | .notInitialized =>
    "Not a tangle workspace (or any parent up to mount point). Run 'tangle init' first."
  | .alreadyInitialized directory =>
    s!"Tangle is already initialized in this directory. Found existing '{directory.text}'"
  | .configuration fault => "Invalid configuration: " ++ fault.message
  | .noGraphs directory =>
    s!"Binding graph sources not found: no graph files in {directory.text}"
  | .graphFile path error =>
    s!"Binding graph sources not found: {path.text}: {error.message}"

/-- A step that may fail and may change files; what it has changed before it fails stays changed. -/
abbrev Action := ExceptT Error (StateM FileTree)

namespace Action

/-- A step on files whose failures are reported in a given way. -/
def onFiles {α : Type} (report : FileError → Error) (step : FileAction α) : Action α :=
  ExceptT.mk (step.run.bind fun result => pure (result.mapError report))

/-- The answer to a question about the files. -/
def ask {α : Type} (question : FileTree → α) : Action α := return question (← get)

end Action

end BindingGraph.Workspace
