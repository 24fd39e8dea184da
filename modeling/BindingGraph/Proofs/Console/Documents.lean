import BindingGraph.Proofs.Console.Run
import BindingGraph.Proofs.Report.PrintedDocuments
import BindingGraph.Proofs.Workspace.Initialize

/-!
# One document for each command

When documents are asked for, a query and the two listings print exactly one, whether they succeed
or fail (`Invocation.run_json`). Making a workspace is told in words in either case: it prints a
document only if it is to be quiet and fails, for then the reason of the failure is all there is.
-/

namespace BindingGraph.Console

open Json (Document)
open Report (Output Presentation Prints prints_document not_prints_empty not_prints_words)

/-! ## Outcomes -/

/-- The document of a failure has its reason as the only field. -/
def ReportsFailure (document : Document) : Prop :=
  ∃ failure : Failure, document = .object [("error", .string failure.message)]

/-- The document of a query: the query as it is shown, its kind and its results, or one object for
each graph, with its results or with the reason why it has none. -/
def ReportsAnswer (catalog : Catalog) (kind : QueryKind) (parameters : List String)
    (perGraph : Bool) (document : Document) : Prop :=
  ∃ query, Query.ofParameters kind parameters = .ok query ∧
    if perGraph then
      document = .array ((catalog.outcomes query).map fun outcome =>
        .object [("graph", .string outcome.graph),
          match outcome.outcome with
          | .ok results => ("results", .array (results.map .string))
          | .error error => ("error", .string error.message)])
    else
      ∃ results, catalog.execute query = .ok results ∧
        document = .object [("query", .string query.text), ("kind", .string query.kind.name),
          ("results", .array (results.map .string))]

/-- The document of the listing of graphs: one object for each, with its size and the number of
warnings under its name. -/
def ReportsGraphs (opened : Workspace.Opened) (document : Document) : Prop :=
  document = .array (opened.catalog.graphs.map fun named =>
    .object [("name", .string named.name), ("nodes", .number named.graph.nodeCount),
      ("edges", .number named.graph.edgeCount),
      ("warnings", .number (opened.warnings.countP (·.1 == named.name)))])

/-- The document of the listing of kinds: one object for each. -/
def ReportsKinds (document : Document) : Prop :=
  document = .array (QueryKind.all.map fun kind =>
    .object [("name", .string kind.name), ("arity", .number kind.arity),
      ("description", .string kind.description)])

variable {view : Presentation}

theorem prints_failure (hjson : view.json = true) (failure : Failure) :
    Prints (({ failure := some failure } : Outcome).result view).output.out
      (.object [("error", .string failure.message)]) := by
  show Prints ("" ++ (Report.failure view failure.message).out) _
  rw [String.empty_append, Report.failure, if_pos hjson]
  exact prints_document _

theorem prints_answerQuery (hjson : view.json = true) (catalog : Catalog) (kind : QueryKind)
    (parameters : List String) (perGraph : Bool) :
    let result := (answerQuery view catalog kind parameters perGraph).result view
    ∃ document, Prints result.output.out document ∧
      if result.succeeded then ReportsAnswer catalog kind parameters perGraph document
      else ReportsFailure document := by
  intro result
  cases hquery : Query.ofParameters kind parameters with
  | error error =>
    have hresult : result = ({ failure := some (.query error) } : Outcome).result view := by
      simp only [result, answerQuery, hquery]
    rw [hresult]
    exact ⟨_, prints_failure hjson _, .query error, rfl⟩
  | ok query =>
    cases perGraph with
    | true =>
      have hresult : result =
          ⟨true, .document (.array ((catalog.outcomes query).map Report.outcomeDocument))⟩ := by
        simp [result, answerQuery, hquery, Report.outcomes, hjson, Outcome.result]
      rw [hresult]
      refine ⟨_, prints_document _, query, hquery, ?_⟩
      rw [if_pos rfl]
      congr 1
      apply List.map_congr_left
      rintro ⟨graph, outcome⟩ -
      cases outcome <;> rfl
    | false =>
      cases hexecute : catalog.execute query with
      | ok results =>
        have hresult : result = ⟨true, .document (.object [("query", .string query.text),
            ("kind", query.kind.document), ("results", .strings results)])⟩ := by
          simp [result, answerQuery, hquery, hexecute, Report.results, hjson, Outcome.result]
        rw [hresult]
        exact ⟨_, prints_document _, query, hquery, results, hexecute, rfl⟩
      | error error =>
        have hresult : result = ({ failure := some (.query error) } : Outcome).result view := by
          simp [result, answerQuery, hquery, hexecute]
        rw [hresult]
        exact ⟨_, prints_failure hjson _, .query error, rfl⟩

/-- A command on graphs prints a document if it does so once they are opened. -/
theorem prints_withGraphs (hjson : view.json = true) (directory : FilePath) (graphs : Option String)
    (timeoutMillis : Option Nat) (files : FileTree) {use : Workspace.Opened → Outcome}
    {Reports : Workspace.Opened → Document → Prop}
    (huse : ∀ opened, ∃ document, Prints ((use opened).result view).output.out document ∧
      if ((use opened).result view).succeeded then Reports opened document
      else ReportsFailure document) :
    let result := ((withGraphs directory graphs timeoutMillis use).run files).1.result view
    ∃ document, Prints result.output.out document ∧
      if result.succeeded then
        ∃ opened, ((openGraphs directory graphs timeoutMillis).run files).1 = .ok opened ∧
          Reports opened document
      else ReportsFailure document := by
  intro result
  rcases hopen : (openGraphs directory graphs timeoutMillis).run files with ⟨error | opened, files'⟩
  · have hresult : result = ({ failure := some (.workspace error) } : Outcome).result view := by
      simp only [result, withGraphs_run_error hopen]
    rw [hresult]
    exact ⟨_, prints_failure hjson _, .workspace error, rfl⟩
  · have hresult : result = (use opened).result view := by
      simp only [result, withGraphs_run_ok hopen]
    rw [hresult]
    obtain ⟨document, hprints, hreports⟩ := huse opened
    refine ⟨document, hprints, ?_⟩
    split_ifs at hreports ⊢
    · exact ⟨opened, rfl, hreports⟩
    · exact hreports

/-! ## Making a workspace -/

/-- What is printed before a workspace is made. -/
def started (quiet : Bool) : Output :=
  if quiet then {} else .lines ["Initializing tangle workspace..."]

theorem makeWorkspace_run_ok {directory : FilePath} {withExample quiet : Bool}
    {files files' : FileTree} {created : Workspace.Created}
    (h : (Workspace.create directory withExample).run files = (.ok created, files')) :
    (makeWorkspace view directory withExample quiet).run files =
      ({ output := started quiet ++ if quiet then {} else .lines (createdLines view created) },
        files') :=
  run_result_bind h

theorem makeWorkspace_run_error {directory : FilePath} {withExample quiet : Bool}
    {files files' : FileTree} {error : Workspace.Error}
    (h : (Workspace.create directory withExample).run files = (.error error, files')) :
    (makeWorkspace view directory withExample quiet).run files =
      ({ output := started quiet, failure := some (.workspace error) }, files') :=
  run_result_bind h

/-- Making a workspace prints a document only if it says nothing else and fails. -/
theorem prints_makeWorkspace (hjson : view.json = true) (directory : FilePath)
    (withExample quiet : Bool) (files : FileTree) :
    let result := ((makeWorkspace view directory withExample quiet).run files).1.result view
    if quiet = true ∧ result.succeeded = false then
      ∃ document, Prints result.output.out document ∧ ReportsFailure document
    else ∀ document, ¬ Prints result.output.out document := by
  intro result
  have hwords (rest : String) (document : Document) :
      ¬ Prints ("Initializing tangle workspace...\n" ++ rest) document :=
    not_prints_words (c := 'I') rfl (by decide) document
  rcases hcreate : (Workspace.create directory withExample).run files with ⟨error | created, files'⟩
  · have hresult : result =
        ({ output := started quiet, failure := some (.workspace error) } : Outcome).result
          view := by
      simp only [result, makeWorkspace_run_error hcreate]
    rw [hresult]
    cases quiet with
    | true =>
      rw [if_pos ⟨rfl, rfl⟩]
      exact ⟨_, prints_failure hjson _, .workspace error, rfl⟩
    | false =>
      rw [if_neg fun h => Bool.false_ne_true h.1]
      exact hwords _
  · have hresult : result =
        ⟨true, started quiet ++ if quiet then {} else .lines (createdLines view created)⟩ := by
      simp only [result, makeWorkspace_run_ok hcreate, Outcome.result]
    rw [hresult, if_neg fun h => Bool.false_ne_true h.2.symm]
    cases quiet with
    | true => exact not_prints_empty
    | false => exact hwords _

/-! ## The commands -/

/-- **One document for each command.** When documents are asked for, whatever there is in the files
and whether the command succeeds, a query, the listing of graphs and the listing of kinds print
exactly one document: their answer, or the reason of the failure as its only field. Making a
workspace does so only if it is quiet and fails. -/
theorem Invocation.run_json (surroundings : Surroundings) (graphs : Option String)
    (files : FileTree) :
    let result (command : Command) := ((run surroundings ⟨true, graphs, some command⟩).run files).1
    let opened (timeoutMillis : Option Nat) :=
      ((openGraphs (pathOfLocation files.current) graphs timeoutMillis).run files).1
    (∀ kind parameters timeoutMillis perGraph,
      let result := result (.query kind parameters timeoutMillis perGraph)
      ∃ document, Prints result.output.out document ∧
        if result.succeeded then
          ∃ loaded, opened timeoutMillis = .ok loaded ∧
            ReportsAnswer loaded.catalog kind parameters perGraph document
        else ReportsFailure document) ∧
    (∃ document, Prints (result .graphs).output.out document ∧
      if (result .graphs).succeeded then
        ∃ loaded, opened none = .ok loaded ∧ ReportsGraphs loaded document
      else ReportsFailure document) ∧
    ((result .kinds).succeeded = true ∧
      ∃ document, Prints (result .kinds).output.out document ∧ ReportsKinds document) ∧
    ∀ withExample quiet,
      let result := result (.init withExample quiet)
      if quiet = true ∧ result.succeeded = false then
        ∃ document, Prints result.output.out document ∧ ReportsFailure document
      else ∀ document, ¬ Prints result.output.out document := by
  intro result opened
  refine ⟨?_, ?_, ?_, ?_⟩
  · intro kind parameters timeoutMillis perGraph
    exact prints_withGraphs rfl _ graphs timeoutMillis files fun loaded =>
      prints_answerQuery rfl loaded.catalog kind parameters perGraph
  · refine prints_withGraphs rfl _ graphs none files fun loaded => ?_
    refine ⟨_, prints_document _, ?_⟩
    rw [ReportsGraphs, Catalog.summaries, List.map_map]
    rfl
  · exact ⟨rfl, _, prints_document _, rfl⟩
  · intro withExample quiet
    exact prints_makeWorkspace rfl _ withExample quiet files

/-- Where there is a workspace already, making one fails, and prints more than the reason
of that. -/
theorem Invocation.init_prints_words :
    let result :=
      ((run {} ⟨true, none, some (.init false false)⟩).run ⟨[([".tangle"], .directory)], []⟩).1
    result.succeeded = false ∧ ∀ document, ¬ Prints result.output.out document := by
  intro result
  refine ⟨?_, prints_makeWorkspace rfl _ false false _⟩
  have hcreate :
      (Workspace.create (pathOfLocation []) false).run ⟨[([".tangle"], .directory)], []⟩ =
        (.error _, _) :=
    Workspace.create_of_exists (by decide) (by decide) false (by decide) (by decide)
  have hmake : (makeWorkspace (presentation ⟨true, none, some (.init false false)⟩ {})
      (pathOfLocation []) false false).run ⟨[([".tangle"], .directory)], []⟩ = _ :=
    makeWorkspace_run_error hcreate
  rw [show result = _ from congrArg Prod.fst (run_command {} true (.init false false) hmake)]
  rfl

end BindingGraph.Console
