import BindingGraph.Text.Separated

/-!
# Paths

A path is the list of names on a walk from a source to a target. It is written with an arrow between
consecutive names, and read back by cutting at the arrows.
-/

namespace BindingGraph

/-- The names on a walk, in order. -/
structure Path where
  nodes : List String := []
  deriving DecidableEq

namespace Path

/-- What stands between two names of a path. -/
def arrow : String := " -> "

/-- Add a name at the end. -/
def push (path : Path) (node : String) : Path := ⟨path.nodes ++ [node]⟩

/-- The last name and the path before it. -/
def pop? (path : Path) : Option (String × Path) :=
  path.nodes.getLast?.map fun last => (last, ⟨path.nodes.dropLast⟩)

/-- The names joined by arrows. -/
def text (path : Path) : String := arrow.intercalate path.nodes

/-- The path that a line shows, cut at its arrows. -/
def ofText (line : String) : Path := ⟨Text.splitOn arrow line⟩

end Path

end BindingGraph
