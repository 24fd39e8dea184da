import BindingGraph.Name.Closest
import BindingGraph.Query.Line
import BindingGraph.Search.Machine
import BindingGraph.Settings

/-!
# Answering queries

An engine answers queries about one graph. Every parameter has to be a node: the first that is not
fails the query, with the closest nodes as suggestions, before anything else is done. Then direct
dependencies, direct dependents and membership are looked up, and paths are searched for under the
engine's fixed deadline or, without one, under a deadline from its settings that starts with the
search.
-/

namespace BindingGraph

/-- A graph with the settings and the fixed deadline, if any, that queries on it run with. -/
structure Engine where
  graph : Graph
  settings : Settings := {}
  deadline : Option Deadline := none

namespace Engine

/-- The name itself if it is a node. -/
def resolve (e : Engine) (name : String) : Except QueryError String :=
  if e.graph.contains name then .ok name
  else
    .error (.unknownName name
      (Name.closest name e.graph.nodes e.settings.maxEditDistance e.settings.maxSuggestions))

/-- The names themselves if all of them are nodes; the first that is not is the error. -/
def resolveAll (e : Engine) : List String → Except QueryError (List String)
  | [] => .ok []
  | name :: names => do
    let name ← e.resolve name
    let names ← e.resolveAll names
    return name :: names

/-- The watch that a search is driven by. -/
def watch (e : Engine) : Watch :=
  (e.deadline.getD e.settings.deadline).watch

/-- The direct dependencies of a node. -/
def dependencies (e : Engine) (node : String) : Except QueryError (List String) := do
  let node ← e.resolve node
  return e.graph.dependencies node

/-- The nodes that directly depend on a node. -/
def dependents (e : Engine) (node : String) : Except QueryError (List String) := do
  let node ← e.resolve node
  return e.graph.dependents node

/-- The node itself. -/
def member (e : Engine) (node : String) : Except QueryError String :=
  e.resolve node

/-- Every simple path between two nodes, in the order of discovery. -/
def allPaths (e : Engine) (source target : String) : Except QueryError (List Path) := do
  let source ← e.resolve source
  let target ← e.resolve target
  (e.graph.collectPaths source target e.watch).mapError .aborted

/-- The first simple path between two nodes, if there is one. -/
def somePath (e : Engine) (source target : String) : Except QueryError (Option Path) := do
  let source ← e.resolve source
  let target ← e.resolve target
  (e.graph.findPath source target e.watch).mapError .aborted

/-- The answer to a query, one text for each result. -/
def execute (e : Engine) (query : Query) : Except QueryError (List String) := do
  let _ ← e.resolveAll query.parameters
  match query with
  | .dependencies node => return e.graph.dependencies node
  | .dependents node => return e.graph.dependents node
  | .member node => return [node]
  | .allPaths source target =>
    let paths ← (e.graph.collectPaths source target e.watch).mapError .aborted
    return paths.map Path.text
  | .somePath source target =>
    let path ← (e.graph.findPath source target e.watch).mapError .aborted
    return path.toList.map Path.text

/-- The answer to a query given by its kind and parameters, with default settings. -/
def answer (graph : Graph) (kind : QueryKind) (parameters : List String) :
    Except QueryError (List String) := do
  let query ← Query.ofParameters kind parameters
  ({ graph } : Engine).execute query

end Engine

end BindingGraph
