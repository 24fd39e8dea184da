import BindingGraph.Graph.Basic

/-!
# Simple paths by recursion

The simple paths from a name to a target, written as the recursion that a backtracking search
unrolls: a name that is the target ends the path, any other is followed by each of its dependencies
that is not on the walk already. Nothing here knows of frames, trails or deadlines.
-/

namespace BindingGraph.Graph

/-- The simple paths that begin with the names `visited`, go on with `name` and end in `target`. -/
def pathsFrom (g : Graph) (target : String) (visited : List String) (name : String) :
    List (List String) :=
  if name = target then [visited ++ [name]]
  else
    (g.dependencies name).attach.flatMap fun ⟨next, _hnext⟩ =>
      if next ∈ visited ++ [name] then [] else g.pathsFrom target (visited ++ [name]) next
termination_by (g.names.filter (· ∉ visited ++ [name])).length
decreasing_by
  rename_i hnew
  have hmem : next ∈ g.names.filter (· ∉ visited ++ [name]) :=
    List.mem_filter.mpr ⟨mem_names_of_mem_dependencies _hnext, by simpa using hnew⟩
  have hsub : (g.names.filter (· ∉ visited ++ [name] ++ [next])) =
      (g.names.filter (· ∉ visited ++ [name])).filter (· ≠ next) := by
    rw [List.filter_filter]
    refine List.filter_congr fun x _ => ?_
    by_cases hx : x = next <;> simp [hx]
  rw [hsub]
  exact List.length_filter_lt_length_iff_exists.mpr ⟨next, hmem, by simp⟩

/-- Each dependency that is not on the walk continues it. -/
theorem pathsFrom_eq (g : Graph) (target : String) (visited : List String) (name : String) :
    g.pathsFrom target visited name =
      if name = target then [visited ++ [name]]
      else (g.dependencies name).flatMap fun next =>
        if next ∈ visited ++ [name] then [] else g.pathsFrom target (visited ++ [name]) next := by
  rw [pathsFrom]
  simp only [List.flatMap_subtype, List.unattach_attach]

/-- A walk: consecutive names are joined by dependency edges. -/
def IsWalk (g : Graph) : List String → Prop
  | [] => True
  | [_] => True
  | a :: b :: rest => b ∈ g.dependencies a ∧ g.IsWalk (b :: rest)

/-- A simple path from `source` to `target`: a walk between them that repeats no name. -/
structure IsSimplePath (g : Graph) (source target : String) (nodes : List String) : Prop where
  head : nodes.head? = some source
  last : nodes.getLast? = some target
  walk : g.IsWalk nodes
  nodup : nodes.Nodup

end BindingGraph.Graph
