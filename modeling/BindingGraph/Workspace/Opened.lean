import BindingGraph.Workspace.Initialize

/-!
# Opening a workspace

The workspace is looked for from the working directory upwards. Its configuration says where the
graphs are, unless a path is given; with a path a workspace is not needed, and without one its
absence is an error. The graphs are loaded into a catalog that queries run on.
-/

namespace BindingGraph.Workspace

/-- A workspace whose graphs have been loaded, with the path they come from and the warnings that
were raised under their names. -/
structure Opened where
  catalog : Catalog
  graphsPath : FilePath
  warnings : List (String × LoadWarning)

namespace Opened

/-- Load the graphs at a path to run with the given settings. -/
def load (path : FilePath) (settings : Settings) : Action Opened := do
  let loaded ← loadFrom path
  return ⟨{ graphs := loaded.graphs, settings }, path, loaded.warnings⟩

/-- Where the graphs of the workspace of a directory are, with the settings for them. A path that is
given stands in for the place that the configuration names. -/
def source (directory : FilePath) (graphs : Option FilePath) : Action (FilePath × Settings) := do
  match findRoot? (← get) directory, graphs with
  | some root, graphs => do
    let configuration ←
      loadConfiguration ((root.child markerName).child configurationName)
    let path := match graphs with
      | some path => directory.join path
      | none => root.join (.ofText configuration.graphs)
    return (path, configuration.engine)
  | none, some path => return (directory.join path, {})
  | none, none => throw .notInitialized

/-- Open the workspace of a directory, or the graphs at a path that is given in its place. -/
def ofDirectory (directory : FilePath) (graphs : Option FilePath) : Action Opened := do
  let (path, settings) ← source directory graphs
  load path settings

/-- The same with another time limit, if one is given. -/
def withTimeout (opened : Opened) (timeoutMillis : Option Nat) : Opened :=
  match timeoutMillis with
  | some millis =>
    { opened with
      catalog.settings := { opened.catalog.settings with timeoutMillis := some millis } }
  | none => opened

end Opened

end BindingGraph.Workspace
