import BindingGraph.Engine

/-!
# Sessions on one graph

A session sends requests to one graph, one after the other. Its settings can be replaced, and its
fixed deadline, if it has one, can be tied to a handle that cancels: once triggered, the handle
stays triggered.
-/

namespace BindingGraph

/-- The state of a session. `fixed` is the limit of its fixed deadline, and `none` when queries use
the settings instead; a fixed deadline may obey the cancelling handle, which may have been
triggered. -/
structure Session where
  graph : Graph
  settings : Settings := {}
  fixed : Option (Option Limit) := none
  cancellable : Bool := false
  cancelled : Bool := false

namespace Session

/-- What a session can be asked for. A query goes by the name of its kind, a plain one with default
settings and no deadline. What is asked of the graph itself, from `nodes` to `edgesInto`, cannot
fail. -/
inductive Request where
  | query (kind : String) (parameters : List String)
  | plainQuery (kind : String) (parameters : List String)
  | dependencies (node : String)
  | dependents (node : String)
  | member (node : String)
  | allPaths (source target : String)
  | somePath (source target : String)
  | resolve (name : String)
  | resolveAll (names : List String)
  | nodes
  | contains (node : String)
  | edgesFrom (node : String)
  | edgesInto (node : String)
  | cancel
  | isCancelled
  | check
  | configure (settings : Settings)

/-- What a session answers. -/
inductive Response where
  | done
  | flag (value : Bool)
  | name (name : String)
  | names (names : List String)
  | paths (paths : List Path)
  | path (path : Option Path)
  | settings (settings : Settings)

/-- The fixed deadline as it stands. -/
def deadline? (s : Session) : Option Deadline :=
  s.fixed.map fun limit => { limit, cancelled := s.cancellable && s.cancelled }

/-- The engine that answers queries at this point. -/
def engine (s : Session) : Engine where
  graph := s.graph
  settings := s.settings
  deadline := s.deadline?

/-- The answer to a request that changes nothing. -/
def respond (s : Session) : Request → Except QueryError Response
  | .query kind parameters => do
    let query ← Query.ofWords kind parameters
    .names <$> s.engine.execute query
  | .plainQuery kind parameters => do
    let query ← Query.ofWords kind parameters
    .names <$> Engine.execute { graph := s.graph } query
  | .dependencies node => .names <$> s.engine.dependencies node
  | .dependents node => .names <$> s.engine.dependents node
  | .member node => .name <$> s.engine.member node
  | .allPaths source target => .paths <$> s.engine.allPaths source target
  | .somePath source target => .path <$> s.engine.somePath source target
  | .resolve name => .name <$> s.engine.resolve name
  | .resolveAll names => .names <$> s.engine.resolveAll names
  | .nodes => .ok (.names s.graph.nodes)
  | .contains node => .ok (.flag (s.graph.contains node))
  | .edgesFrom node => .ok (.names (s.graph.dependencies node))
  | .edgesInto node => .ok (.names (s.graph.dependents node))
  | .cancel => .ok .done
  | .isCancelled => .ok (.flag s.cancelled)
  | .check =>
    match (s.deadline?.getD s.settings.deadline).abortReason? with
    | some reason => .error (.aborted reason)
    | none => .ok .done
  | .configure settings => .ok (.settings settings)

/-- The session after a request. -/
def after (s : Session) : Request → Session
  | .cancel => { s with cancelled := true }
  | .configure settings => { s with settings }
  | _ => s

/-- The answers to a sequence of requests. -/
def run (s : Session) : List Request → List (Except QueryError Response)
  | [] => []
  | request :: requests => s.respond request :: (s.after request).run requests

end Session

end BindingGraph
