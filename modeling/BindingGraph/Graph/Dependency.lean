import BindingGraph.Graph.Basic

/-!
# Dependency graphs

A dependency graph is grown by declarations: a node, a dependency between two names, or a binding
with all its dependencies. Nodes keep the order in which they are first mentioned and edges the
order in which they are first declared; a repeated declaration changes nothing. Both ends of every
edge are nodes, which the type records.
-/

namespace BindingGraph

/-- A graph grown by declarations, whose edges `(dependent, dependency)` all join declared nodes.
Nodes stand in the order of their declaration, edges in that of their insertion. -/
structure DependencyGraph where
  nodes : List String
  edges : List (String × String)
  nodes_nodup : nodes.Nodup
  edges_nodup : edges.Nodup
  edges_declared : ∀ edge ∈ edges, edge.1 ∈ nodes ∧ edge.2 ∈ nodes

namespace DependencyGraph

/-- The graph with no nodes. -/
def empty : DependencyGraph where
  nodes := []
  edges := []
  nodes_nodup := List.nodup_nil
  edges_nodup := List.nodup_nil
  edges_declared := by simp

/-- Declare a node. A node that is there already stays where it is. -/
def addNode (g : DependencyGraph) (name : String) : DependencyGraph :=
  if h : name ∈ g.nodes then g
  else
    { nodes := g.nodes ++ [name]
      edges := g.edges
      nodes_nodup := by
        simp only [List.nodup_append, List.mem_singleton]
        exact ⟨g.nodes_nodup, by simp, fun a ha b hb e => h (hb ▸ e ▸ ha)⟩
      edges_nodup := g.edges_nodup
      edges_declared := fun edge hedge =>
        (g.edges_declared edge hedge).imp (List.mem_append_left _) (List.mem_append_left _) }

theorem mem_nodes_addNode {g : DependencyGraph} {name other : String} :
    other ∈ (g.addNode name).nodes ↔ other ∈ g.nodes ∨ other = name := by
  unfold addNode
  split
  · grind
  · simp

/-- Add an edge between two declared nodes. An edge that is there already stays where it is. -/
def addEdge (g : DependencyGraph) (source target : String)
    (h : source ∈ g.nodes ∧ target ∈ g.nodes) : DependencyGraph :=
  if hedge : (source, target) ∈ g.edges then g
  else
    { nodes := g.nodes
      edges := g.edges ++ [(source, target)]
      nodes_nodup := g.nodes_nodup
      edges_nodup := by
        simp only [List.nodup_append, List.mem_singleton]
        exact ⟨g.edges_nodup, by simp, fun a ha b hb e => hedge (hb ▸ e ▸ ha)⟩
      edges_declared := fun edge hmem => by
        rcases List.mem_append.mp hmem with hmem | hmem
        · exact g.edges_declared edge hmem
        · rw [List.mem_singleton] at hmem
          exact hmem ▸ h }

/-- Declare that `source` directly depends on `target`; both become nodes, `source` first. -/
def addDependency (g : DependencyGraph) (source target : String) : DependencyGraph :=
  ((g.addNode source).addNode target).addEdge source target
    (by simp [mem_nodes_addNode])

/-- Declare a node together with its direct dependencies, in order. -/
def addBinding (g : DependencyGraph) (node : String) (dependencies : List String) :
    DependencyGraph :=
  dependencies.foldl (fun g dependency => g.addDependency node dependency) (g.addNode node)

/-- One declaration. -/
inductive Declaration where
  | node (name : String)
  | dependency (source target : String)
  | binding (name : String) (dependencies : List String)

/-- Carry out one declaration. -/
def declare (g : DependencyGraph) : Declaration → DependencyGraph
  | .node name => g.addNode name
  | .dependency source target => g.addDependency source target
  | .binding name dependencies => g.addBinding name dependencies

/-- The graph of a sequence of declarations. -/
def ofDeclarations (declarations : List Declaration) : DependencyGraph :=
  declarations.foldl declare empty

/-- The graph of a list of bindings with their dependencies. -/
def ofBindings (bindings : List (String × List String)) : DependencyGraph :=
  ofDeclarations (bindings.map fun (name, dependencies) => .binding name dependencies)

/-! ## Views -/

/-- The direct dependencies of a name, in insertion order. -/
def dependencies (g : DependencyGraph) (name : String) : List String :=
  (g.edges.filter (·.1 == name)).map (·.2)

/-- The sources of the edges into a name, in declaration order. -/
def dependents (g : DependencyGraph) (name : String) : List String :=
  ((g.edges.filter (·.2 == name)).map (·.1)).mergeSort
    fun a b => decide (g.nodes.idxOf a ≤ g.nodes.idxOf b)

/-- How many nodes there are. -/
def nodeCount (g : DependencyGraph) : Nat := g.nodes.length

/-- How many edges there are. -/
def edgeCount (g : DependencyGraph) : Nat := g.edges.length

/-- Every node with its direct dependencies, in declaration order. -/
def bindings (g : DependencyGraph) : List (String × List String) :=
  g.nodes.map fun node => (node, g.dependencies node)

/-- The graph as queries see it. -/
def view (g : DependencyGraph) : Graph where
  nodes := g.nodes
  dependencies := g.dependencies
  dependents := g.dependents
  dependencies_eq_nil := fun name h => by
    simp only [dependencies, List.map_eq_nil_iff, List.filter_eq_nil_iff, beq_iff_eq]
    exact fun edge hedge e => h (e ▸ (g.edges_declared edge hedge).1)

end DependencyGraph

end BindingGraph
