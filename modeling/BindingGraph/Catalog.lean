import BindingGraph.Engine
import BindingGraph.Graph.Dependency

/-!
# Catalogs

A catalog holds the graphs that have been loaded, each under a name, and the settings queries run
with. A query is asked of every graph in order. `outcomes` keeps the answers apart; `execute` joins
them: it succeeds when some graph had a result or none failed, and otherwise fails with the failure
that says most, which is the first misspelling or, if there is none, the first unknown name or, if
there is none of these either, the first failure. A search that is stopped ends the run at once.
-/

namespace BindingGraph

/-- A graph and the name it was loaded under. -/
structure NamedGraph where
  name : String
  graph : DependencyGraph

/-- The size of a loaded graph. -/
structure GraphSummary where
  name : String
  nodes : Nat
  edges : Nat

/-- What one graph answered. -/
structure GraphOutcome where
  graph : String
  outcome : Except QueryError (List String)

/-- The loaded graphs, in the order in which they are asked, and the settings. -/
structure Catalog where
  graphs : List NamedGraph := []
  settings : Settings := {}

namespace Catalog

/-- The engine for one of the graphs, with the deadline of the whole run. -/
def engine (c : Catalog) (named : NamedGraph) : Engine where
  graph := named.graph.view
  settings := c.settings
  deadline := some c.settings.deadline

/-- The answer of each graph, in order. -/
def outcomes (c : Catalog) (query : Query) : List GraphOutcome :=
  c.graphs.map fun named => ⟨named.name, (c.engine named).execute query⟩

/-- How much a failure says: the lower the more. -/
def rank (error : QueryError) : Nat :=
  match error with
  | .unknownName _ suggestions => if suggestions.isEmpty then 1 else 0
  | _ => 2

/-- The failure that says more, the earlier of two that say as much. -/
def moreTelling (failure : Option QueryError) (error : QueryError) : QueryError :=
  match failure with
  | some kept => if rank error < rank kept then error else kept
  | none => error

/-- Ask the graphs that are left, given the results and the most telling failure so far. -/
def executeFrom (c : Catalog) (query : Query) (results : List String)
    (failure : Option QueryError) : List NamedGraph → Except QueryError (List String)
  | [] =>
    match failure with
    | some error => if results.isEmpty then .error error else .ok results
    | none => .ok results
  | named :: rest =>
    match (c.engine named).execute query with
    | .ok found => c.executeFrom query (results ++ found) failure rest
    | .error error =>
      if error.isAborted then .error error
      else c.executeFrom query results (some (moreTelling failure error)) rest

/-- The joined answer of all graphs. -/
def execute (c : Catalog) (query : Query) : Except QueryError (List String) :=
  c.executeFrom query [] none c.graphs

/-- The sizes of the graphs, in order. -/
def summaries (c : Catalog) : List GraphSummary :=
  c.graphs.map fun named => ⟨named.name, named.graph.nodeCount, named.graph.edgeCount⟩

end Catalog

end BindingGraph
