import BindingGraph.Catalog
import BindingGraph.Record.Ledger
import BindingGraph.Report.Output

/-!
# Listings of graphs and of kinds of query

Each graph is listed with its size and the number of warnings that were raised under its name, each
kind of query with the number of names it takes and what it answers.
-/

namespace BindingGraph.Report

/-- How many of the warnings were raised under a name. -/
def warningCount (warnings : List (String × LoadWarning)) (name : String) : Nat :=
  warnings.countP (·.1 == name)

/-- A listed graph as a JSON document. -/
def graphDocument (warnings : Nat) (summary : GraphSummary) : Json.Document :=
  .object [("name", .string summary.name), ("nodes", .number summary.nodes),
    ("edges", .number summary.edges), ("warnings", .number warnings)]

/-- A listed graph as a line; warnings are only mentioned if there are any. -/
def graphLine (view : Presentation) (warnings : Nat) (summary : GraphSummary) : String :=
  let size := s!"{summary.nodes} bindings, {summary.edges} dependencies"
  let line := view.paint .bold summary.name ++ "  " ++ view.paint .dimmed size
  if warnings = 0 then line else line ++ "  " ++ view.paint .warning s!"{warnings} load warnings"

/-- The loaded graphs. -/
def graphs (view : Presentation) (summaries : List GraphSummary)
    (warnings : List (String × LoadWarning)) : Output :=
  let count (summary : GraphSummary) := warningCount warnings summary.name
  if view.json then
    .document (.array (summaries.map fun summary => graphDocument (count summary) summary))
  else .lines (summaries.map fun summary => graphLine view (count summary) summary)

/-- How a query of a kind is written. -/
def usage (kind : QueryKind) : String :=
  kind.name ++ if kind.arity = 1 then " <binding>" else " <source> <target>"

/-- The text filled up with spaces to a number of characters. -/
def padded (width : Nat) (text : String) : String :=
  text ++ String.ofList (List.replicate (width - text.length) ' ')

/-- A kind as a JSON document. -/
def kindDocument (kind : QueryKind) : Json.Document :=
  .object [("name", .string kind.name), ("arity", .number kind.arity),
    ("description", .string kind.description)]

/-- A kind as a line; the characters of escape sequences count towards the width of the first
column. -/
def kindLine (view : Presentation) (kind : QueryKind) : String :=
  padded 32 (view.paint .bold (usage kind)) ++ view.paint .dimmed kind.description

/-- The kinds of query. -/
def kinds (view : Presentation) : Output :=
  if view.json then .document (.array (QueryKind.all.map kindDocument))
  else .lines (QueryKind.all.map (kindLine view))

end BindingGraph.Report
