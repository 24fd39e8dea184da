import BindingGraph.Text.Blank

/-!
# Kinds of query

The five questions that can be asked of a graph, with the name each goes by, the number of binding
names it takes and what it answers. A kind is recognised by its name in any ASCII case.
-/

namespace BindingGraph

/-- The kinds of query. -/
inductive QueryKind where
  | dependencies
  | dependents
  | allPaths
  | somePath
  | member
  deriving DecidableEq

namespace QueryKind

/-- Every kind, in the order in which they are listed. -/
def all : List QueryKind :=
  [.dependencies, .dependents, .allPaths, .somePath, .member]

/-- The name a kind goes by. -/
def name : QueryKind → String
  | .dependencies => "deps"
  | .dependents => "rdeps"
  | .allPaths => "allpaths"
  | .somePath => "somepath"
  | .member => "exists"

/-- How many binding names a query of this kind takes. -/
def arity : QueryKind → Nat
  | .dependencies | .dependents | .member => 1
  | .allPaths | .somePath => 2

/-- What a query of this kind answers. -/
def description : QueryKind → String
  | .dependencies => "direct dependencies of a binding"
  | .dependents => "bindings that directly depend on a binding"
  | .allPaths => "every dependency path between two bindings"
  | .somePath => "one dependency path between two bindings"
  | .member => "check that a binding is in the graph"

/-- The kind with the given name, in any ASCII case. -/
def ofName? (text : String) : Option QueryKind :=
  all.find? fun kind => Text.sameUpToCase kind.name text

theorem mem_all (kind : QueryKind) : kind ∈ all := by
  cases kind <;> simp [all]

theorem name_injective {a b : QueryKind} (h : a.name = b.name) : a = b := by
  revert h
  cases a <;> cases b <;> decide

end QueryKind

end BindingGraph
