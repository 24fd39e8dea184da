import BindingGraph.Query.Error

/-!
# Queries

A query is one of the five questions together with the names it is about; that the number of names
fits is part of the type. `Query.ofParameters` checks it for a kind and a list of names, and
`Query.text` writes a query on one line.
-/

namespace BindingGraph

/-- A question about a graph. -/
inductive Query where
  | dependencies (node : String)
  | dependents (node : String)
  | allPaths (source target : String)
  | somePath (source target : String)
  | member (node : String)
  deriving DecidableEq

namespace Query

/-- The kind of a query. -/
def kind : Query → QueryKind
  | .dependencies _ => .dependencies
  | .dependents _ => .dependents
  | .allPaths _ _ => .allPaths
  | .somePath _ _ => .somePath
  | .member _ => .member

/-- The names a query is about. -/
def parameters : Query → List String
  | .dependencies node | .dependents node | .member node => [node]
  | .allPaths source target | .somePath source target => [source, target]

/-- The query of a kind with the given parameters, if their number fits. -/
def ofParameters (kind : QueryKind) (parameters : List String) : Except QueryError Query :=
  match kind, parameters with
  | .dependencies, [node] => .ok (.dependencies node)
  | .dependents, [node] => .ok (.dependents node)
  | .allPaths, [source, target] => .ok (.allPaths source target)
  | .somePath, [source, target] => .ok (.somePath source target)
  | .member, [node] => .ok (.member node)
  | kind, parameters => .error (.arityMismatch kind kind.arity parameters.length)

/-- The query on one line: its kind's name and its parameters, separated by spaces. -/
def text (query : Query) : String :=
  " ".intercalate (query.kind.name :: query.parameters)

theorem length_parameters (query : Query) : query.parameters.length = query.kind.arity := by
  cases query <;> rfl

/-- A query is what its kind and its parameters say it is. -/
theorem ofParameters_kind_parameters (query : Query) :
    ofParameters query.kind query.parameters = .ok query := by
  cases query <;> rfl

theorem kind_parameters_of_ofParameters {kind : QueryKind} {parameters : List String}
    {query : Query} (h : ofParameters kind parameters = .ok query) :
    query.kind = kind ∧ query.parameters = parameters := by
  unfold ofParameters at h
  split at h <;> first | (cases h; exact ⟨rfl, rfl⟩) | cases h

end Query

end BindingGraph
