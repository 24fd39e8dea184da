import BindingGraph.Workspace.Error

/-!
# Finding a workspace

A workspace is a directory with a directory of a certain name in it. It is looked for from a path
upwards, from parent to parent as the text of the path shows them, and only so far.
-/

namespace BindingGraph.Workspace

/-- The name of the directory that makes its parent a workspace. -/
def markerName : String := ".tangle"

/-- The largest number of parents that are looked at. -/
def maxParents : Nat := 256

/-- A path, its parent, the parent of that, and so on, `count` of them at most behind the first. -/
def ancestors (path : FilePath) : (count : Nat) → List FilePath
  | 0 => [path]
  | count + 1 =>
    match path.parent? with
    | some parent => path :: ancestors parent count
    | none => [path]

/-- Whether a path leads to a workspace. -/
def isRoot (files : FileTree) (path : FilePath) : Bool :=
  files.isDirectory (path.child markerName)

/-- The nearest workspace at a path or above it. -/
def findRoot? (files : FileTree) (start : FilePath) : Option FilePath :=
  (ancestors start maxParents).find? (isRoot files)

end BindingGraph.Workspace
