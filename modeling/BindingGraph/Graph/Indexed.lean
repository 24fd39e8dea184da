import BindingGraph.Graph.Dependency
import BindingGraph.Graph.NodeStore

/-!
# Graphs with an index

An indexed graph keeps its nodes and edges in a node store and finds the number of a name in an
index beside it. Declarations look names up before they put anything in, so that a name has one
number and an edge is kept once. Dependencies are read by turning the store's list around,
dependents by sorting theirs by number.
-/

namespace BindingGraph

/-- A node store and the numbers of its nodes by name, latest first. -/
structure IndexedGraph (σ : Type) where
  store : σ
  numbers : List (String × Nat)

namespace IndexedGraph

variable {σ : Type} [NodeStore σ]

/-- The graph with no nodes. -/
def empty : IndexedGraph σ := ⟨NodeStore.empty, []⟩

/-- The number of a name, if it is a node. -/
def number? (g : IndexedGraph σ) (name : String) : Option Nat := g.numbers.lookup name

/-- Declare a node. The answer is its number, the one that it has if it is there already. -/
def addNode (g : IndexedGraph σ) (name : String) : Nat × IndexedGraph σ :=
  match g.number? name with
  | some number => (number, g)
  | none =>
    let (number, store) := NodeStore.addNode g.store name
    (number, ⟨store, (name, number) :: g.numbers⟩)

/-- Add an edge between two numbers. An edge that is there already stays where it is. -/
def addEdge (g : IndexedGraph σ) (source target : Nat) : IndexedGraph σ :=
  if NodeStore.hasEdge g.store source target then g
  else { g with store := NodeStore.addEdge g.store source target }

/-- Declare that `source` directly depends on `target`; both become nodes, `source` first. -/
def addDependency (g : IndexedGraph σ) (source target : String) : IndexedGraph σ :=
  let (sourceNumber, g) := g.addNode source
  let (targetNumber, g) := g.addNode target
  g.addEdge sourceNumber targetNumber

/-- Declare a node together with its direct dependencies, in order. -/
def addBinding (g : IndexedGraph σ) (node : String) (dependencies : List String) :
    IndexedGraph σ :=
  dependencies.foldl (fun g dependency => g.addDependency node dependency) (g.addNode node).2

/-- Carry out one declaration. -/
def declare (g : IndexedGraph σ) : DependencyGraph.Declaration → IndexedGraph σ
  | .node name => (g.addNode name).2
  | .dependency source target => g.addDependency source target
  | .binding name dependencies => g.addBinding name dependencies

/-- The graph of a sequence of declarations. -/
def ofDeclarations (declarations : List DependencyGraph.Declaration) : IndexedGraph σ :=
  declarations.foldl declare empty

/-! ## Views -/

/-- How many nodes there are. -/
def nodeCount (g : IndexedGraph σ) : Nat := NodeStore.nodeCount g.store

/-- How many edges there are. -/
def edgeCount (g : IndexedGraph σ) : Nat := NodeStore.edgeCount g.store

/-- Every node, in the order of their numbers. -/
def nodes (g : IndexedGraph σ) : List String :=
  (List.range g.nodeCount).map (NodeStore.nameAt g.store)

/-- Whether a name is a node. -/
def contains (g : IndexedGraph σ) (name : String) : Bool := (g.number? name).isSome

/-- The names of the nodes that are found for the number of a name, none if it is no node. -/
def neighbours (g : IndexedGraph σ) (find : Nat → List Nat) (name : String) : List String :=
  match g.number? name with
  | some number => (find number).map (NodeStore.nameAt g.store)
  | none => []

/-- The direct dependencies of a name, in insertion order. -/
def dependencies (g : IndexedGraph σ) (name : String) : List String :=
  -- The store lists the latest target first.
  g.neighbours (fun number => (NodeStore.targets g.store number).reverse) name

/-- The nodes that directly depend on a name, in declaration order. -/
def dependents (g : IndexedGraph σ) (name : String) : List String :=
  g.neighbours (fun number => (NodeStore.sources g.store number).mergeSort (· ≤ ·)) name

end IndexedGraph

end BindingGraph
