import BindingGraph.Workspace.Configuration
import BindingGraph.Workspace.Example
import BindingGraph.Workspace.GraphFile
import BindingGraph.Workspace.Root

/-!
# Making a workspace

A new workspace gets the default configuration and a directory for graphs, with an example graph
in it if that is wanted. Where something already has the name of the marking directory, nothing
is done.
-/

namespace BindingGraph.Workspace

/-- The name of the configuration file. -/
def configurationName : String := "config.yaml"

/-- The file that holds the example graph. -/
def exampleFileName : String := "beach.jsonl"

/-- What making a workspace has created. -/
structure Created where
  marker : FilePath
  configuration : FilePath
  graphs : FilePath
  example? : Option FilePath

/-- Read a configuration file. -/
def loadConfiguration (path : FilePath) : Action Configuration := do
  let text ← Action.onFiles .file (FileAction.readText path)
  match Configuration.ofText text with
  | .ok configuration => return configuration
  | .error fault => throw (.configuration fault)

/-- Write a configuration file. -/
def saveConfiguration (path : FilePath) (configuration : Configuration) : Action Unit :=
  Action.onFiles .file (FileAction.write path (Text.encodeUtf8 configuration.text))

/-- Make a workspace in a directory. -/
def create (base : FilePath) (withExample : Bool) : Action Created := do
  let marker := base.child markerName
  if ← Action.ask (·.pathExists marker) then throw (.alreadyInitialized marker)
  Action.onFiles .file (FileAction.createPath marker)
  let configuration := marker.child configurationName
  saveConfiguration configuration {}
  let graphs := base.join (.ofText ({} : Configuration).graphs)
  Action.onFiles .file (FileAction.createPath graphs)
  let example? ←
    if withExample then do
      let path := graphs.child exampleFileName
      saveFile path exampleGraph
      pure (some path)
    else pure none
  return { marker, configuration, graphs, example? }

end BindingGraph.Workspace
