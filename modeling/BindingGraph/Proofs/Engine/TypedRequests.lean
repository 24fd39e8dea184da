import BindingGraph.Proofs.Engine.Failures
import BindingGraph.Proofs.Query.Line

/-!
# Queries and the requests behind them

Each kind of query has a request of its own, which is given the names and answers with names or
paths. A query looks all its names up before it asks what kind it is, a request looks up one name
after the other; they agree in every answer and in every failure (`Engine.execute_eq_typed`). Where
a kind comes with parameters that may be too few or too many, their number is found wrong before any
of them is looked up (`Engine.answer_eq_arityMismatch_iff`).
-/

namespace BindingGraph.Engine

variable {graph : Graph} {kind : QueryKind} {parameters : List String}

/-! ## One name -/

/-- Looking a name up by itself is looking up all names of a list with no other. -/
theorem resolve_bind {α : Type} (e : Engine) (name : String)
    (lookup : String → Except QueryError α) :
    e.resolve name >>= lookup = e.resolveAll [name] >>= fun _ => lookup name := by
  simp only [resolveAll, resolve]
  by_cases hname : e.graph.contains name
  · rw [if_pos hname]
    rfl
  · rw [if_neg hname]
    rfl

theorem execute_dependencies (e : Engine) (node : String) :
    e.execute (.dependencies node) = e.dependencies node :=
  (e.resolve_bind node fun node => .ok (e.graph.dependencies node)).symm

theorem execute_dependents (e : Engine) (node : String) :
    e.execute (.dependents node) = e.dependents node :=
  (e.resolve_bind node fun node => .ok (e.graph.dependents node)).symm

theorem execute_member (e : Engine) (node : String) :
    e.execute (.member node) = List.singleton <$> e.member node := by
  calc
    e.execute (.member node) = e.resolve node >>= fun node => .ok [node] :=
      (e.resolve_bind node fun node => .ok [node]).symm
    _ = List.singleton <$> e.member node := by
      rw [member]
      cases e.resolve node <;> rfl

/-! ## The number of parameters -/

/-- The number of parameters is what fails a query if it is wrong, whatever the graph, and
only then. -/
theorem answer_eq_arityMismatch_iff {kind' : QueryKind} {expected actual : Nat} :
    answer graph kind parameters = .error (.arityMismatch kind' expected actual) ↔
      parameters.length ≠ kind.arity ∧ kind' = kind ∧ expected = kind.arity ∧
        actual = parameters.length := by
  by_cases hfits : parameters.length = kind.arity
  · obtain ⟨query, hquery⟩ := Query.exists_ofParameters_of_length_eq hfits
    have hanswer : answer graph kind parameters = execute { graph } query := by
      rw [answer, hquery]
      rfl
    rw [hanswer]
    have hne := (outcome_execute { graph } query).ne_arityMismatch kind' expected actual
    exact ⟨fun h => absurd h hne, fun h => absurd hfits h.1⟩
  · have hanswer : answer graph kind parameters =
        .error (.arityMismatch kind kind.arity parameters.length) := by
      rw [answer, Query.ofParameters_of_length_ne hfits]
      rfl
    rw [hanswer]
    constructor
    · rintro ⟨⟩
      exact ⟨hfits, rfl, rfl, rfl⟩
    · rintro ⟨-, rfl, rfl, rfl⟩
      rfl

/-! ## Queries and requests -/

/-- **Queries and requests agree.** Over any graph, with any settings and under any deadline, a
query about direct dependencies, dependents or membership is answered as the request for them, a
query for paths as the request for the paths with each of them written out; a failure is the same
failure. Taking the parameters apart after they have been looked up makes no difference. A kind with
parameters is answered as the query that they make, by an engine with default settings, once their
number has been found right; it is found wrong whatever the names are and whatever graph they are
looked for in. -/
theorem execute_eq_typed :
    (∀ e : Engine,
      (∀ node, e.execute (.dependencies node) = e.dependencies node) ∧
      (∀ node, e.execute (.dependents node) = e.dependents node) ∧
      (∀ node, e.execute (.member node) = List.singleton <$> e.member node) ∧
      (∀ source target,
        e.execute (.allPaths source target) = List.map Path.text <$> e.allPaths source target) ∧
      (∀ source target,
        e.execute (.somePath source target) =
          (fun path => (path.map Path.text).toList) <$> e.somePath source target) ∧
      ∀ query, e.dispatch query.kind query.parameters = e.execute query) ∧
    ∀ graph kind parameters,
      answer graph kind parameters =
        (Query.ofParameters kind parameters >>= fun query =>
          execute { graph, settings := {}, deadline := none } query) ∧
      ∀ kind' expected actual,
        answer graph kind parameters = .error (.arityMismatch kind' expected actual) ↔
          parameters.length ≠ kind.arity ∧ kind' = kind ∧ expected = kind.arity ∧
            actual = parameters.length := by
  constructor
  · intro e
    refine ⟨e.execute_dependencies, e.execute_dependents, e.execute_member, e.execute_allPaths, ?_,
      e.dispatch_kind_parameters⟩
    intro source target
    rw [execute_somePath]
    congr 1
    funext path
    cases path <;> rfl
  · intro graph kind parameters
    exact ⟨rfl, fun _ _ _ => answer_eq_arityMismatch_iff⟩

end BindingGraph.Engine
