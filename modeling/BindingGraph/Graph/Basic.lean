/-!
# Binding graphs as queries see them

A query needs four things of a graph: its nodes in a fixed order, the direct dependencies of a
name in a fixed order, the direct dependents of a name, and membership. An edge points from a
binding to what it needs. `Graph` is that view; `DependencyGraph` and `TableGraph` are the two
ways to obtain one.

A name that is not a node has no dependencies (`dependencies_eq_nil`). With finitely many nodes this
bounds every walk: all names that a walk can meet are in `Graph.names`.
-/

namespace BindingGraph

/-- What a query may ask of a binding graph: its nodes and the direct dependencies of a name, both in
the graph's fixed order, and the direct dependents of a name. A name that is not a node has no
dependencies. -/
structure Graph where
  nodes : List String
  dependencies : String → List String
  dependents : String → List String
  dependencies_eq_nil : ∀ name, name ∉ nodes → dependencies name = []

namespace Graph

/-- Whether `name` is a node. -/
def contains (g : Graph) (name : String) : Bool :=
  g.nodes.contains name

theorem contains_iff {g : Graph} {name : String} : g.contains name ↔ name ∈ g.nodes := by
  simp [contains]

/-- The nodes that have `name` among their dependencies, in node order: what `dependents` amounts to
when only `nodes` and `dependencies` are known. -/
def scanDependents (nodes : List String) (dependencies : String → List String) (name : String) :
    List String :=
  nodes.filter fun node => (dependencies node).contains name

theorem mem_scanDependents_iff {nodes : List String} {dependencies : String → List String}
    {name node : String} :
    node ∈ scanDependents nodes dependencies name ↔ node ∈ nodes ∧ name ∈ dependencies node := by
  simp [scanDependents]

/-- Every name that occurs in the graph, as a node or as a dependency; repeats are kept. -/
def names (g : Graph) : List String :=
  g.nodes ++ g.nodes.flatMap g.dependencies

theorem mem_names_of_mem_dependencies {g : Graph} {node name : String}
    (h : name ∈ g.dependencies node) : name ∈ g.names := by
  by_cases hnode : node ∈ g.nodes
  · exact List.mem_append_right _ (List.mem_flatMap.mpr ⟨node, hnode, h⟩)
  · simp [g.dependencies_eq_nil node hnode] at h

/-- The length of the longest list of dependencies. -/
def maxDegree (g : Graph) : Nat :=
  (g.nodes.map fun node => (g.dependencies node).length).foldr max 0

theorem length_dependencies_le (g : Graph) (name : String) :
    (g.dependencies name).length ≤ g.maxDegree := by
  by_cases hnode : name ∈ g.nodes
  · have key : ∀ l : List Nat, ∀ n ∈ l, n ≤ l.foldr max 0 := by
      intro l
      induction l with
      | nil => simp
      | cons m l ih =>
        intro n hn
        simp only [List.foldr_cons]
        rcases List.mem_cons.mp hn with rfl | hn
        · omega
        · have := ih n hn
          omega
    exact key _ _ (List.mem_map.mpr ⟨name, hnode, rfl⟩)
  · simp [g.dependencies_eq_nil name hnode]

end Graph

end BindingGraph
