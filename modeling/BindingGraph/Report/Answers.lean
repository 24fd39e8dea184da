import BindingGraph.Catalog
import BindingGraph.Query.Document
import BindingGraph.Report.Output

/-!
# Reports on queries

The answer to a query as text, one result to a line, or as one JSON document; the answers of the
graphs apart; and the reason of a failure, which in text goes to the other stream.
-/

namespace BindingGraph.Report

/-- What stands before the reason of a failure. -/
def failurePrefix : String := "Execution failed. Reason: "

/-- The line that reports a failure. -/
def failureText (message : String) : String := failurePrefix ++ message

/-- The lines of a list of results. -/
def resultLines (view : Presentation) (results : List String) : List String :=
  if results.isEmpty then [view.paint .dimmed "No results."]
  else results.map view.palette.paintPath

/-- The results of a query. -/
def results (view : Presentation) (query : Query) (results : List String) : Output :=
  if view.json then
    .document (.object [("query", .string query.text), ("kind", query.kind.document),
      ("results", .strings results)])
  else .lines (resultLines view results)

/-- The answer of one graph as a JSON document. -/
def outcomeDocument (outcome : GraphOutcome) : Json.Document :=
  .object (("graph", .string outcome.graph) ::
    match outcome.outcome with
    | .ok results => [("results", .strings results)]
    | .error error => [("error", .string error.message)])

/-- The answer of one graph as lines. -/
def outcomeLines (view : Presentation) (outcome : GraphOutcome) : List String :=
  view.paint .bold ("[" ++ outcome.graph ++ "]") ::
    match outcome.outcome with
    | .ok results => resultLines view results
    | .error error => [view.paint .error error.message]

/-- The answers of all graphs. -/
def outcomes (view : Presentation) (outcomes : List GraphOutcome) : Output :=
  if view.json then .document (.array (outcomes.map outcomeDocument))
  else .lines (outcomes.flatMap (outcomeLines view))

/-- The reason why a command or a query failed. -/
def failure (view : Presentation) (message : String) : Output :=
  if view.json then .document (.object [("error", .string message)])
  else ⟨"", view.paint .error (failureText message) ++ "\n"⟩

end BindingGraph.Report
