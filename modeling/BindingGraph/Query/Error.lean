import BindingGraph.Duration
import BindingGraph.Query.Kind

/-!
# What can go wrong with a query

A query fails because a name is not in the graph, because its search was stopped, because its kind
is not known, or because it has the wrong number of parameters. `QueryError.message` is the only
place where these are put into words.
-/

namespace BindingGraph

/-- Why a search stopped before it was complete: its time limit ran out, or somebody asked for it to
be given up. -/
inductive AbortReason where
  | timedOut (limit : Duration)
  | cancelled
  deriving DecidableEq

/-- The reason in words. -/
def AbortReason.message : AbortReason → String
  | .timedOut limit => "timed out after " ++ limit.text
  | .cancelled => "cancelled"

/-- Why a query has no answer: a parameter is not a node, and the suggestions are nodes with nearly
the same name; a path search was stopped; no kind of query has the name; or the number of parameters
does not fit the kind. -/
inductive QueryError where
  | unknownName (name : String) (suggestions : List String)
  | aborted (reason : AbortReason)
  | unknownKind (text : String)
  | arityMismatch (kind : QueryKind) (expected actual : Nat)
  deriving DecidableEq

namespace QueryError

/-- The error in words. -/
def message : QueryError → String
  | .unknownName name [] => s!"Binding with name {name} not found in the graph."
  | .unknownName name suggestions =>
    s!"Binding with name {name} contains a typo and not found in the graph. Maybe you meant " ++
      ", ".intercalate suggestions ++ "?"
  | .aborted reason => "Query aborted: " ++ reason.message
  | .unknownKind text => s!"Query with name '{text}' isn't implemented."
  | .arityMismatch kind expected actual =>
    "The number of passed parameters is incorrect for '" ++ kind.name ++
      s!"'. Expected: {expected}, got: {actual}."

/-- Whether the name is unknown but close to some node. -/
def isMisspelling : QueryError → Bool
  | .unknownName _ suggestions => !suggestions.isEmpty
  | _ => false

/-- Whether a search was stopped. -/
def isAborted : QueryError → Bool
  | .aborted _ => true
  | _ => false

end QueryError

end BindingGraph
