import BindingGraph.Proofs.Engine.Deadlines
import BindingGraph.Proofs.Name.Closest

/-!
# Which queries fail, and why

What comes of a query is laid down by four rules (`Engine.Outcome`): the first of its names that is
no node fails it; between nodes, a search for paths is aborted where the deadline is cancelled or,
if it is not, where its limit has run out; everything else is answered. An engine answers by these
rules and by no others (`Engine.outcome_iff`).

The number of parameters is checked when a query is made. An engine that would take a kind with any
parameters (`Engine.dispatch`) has to be ready for a number that does not fit, but with the
parameters of a query it never finds one (`Engine.dispatch_kind_parameters`).
-/

namespace BindingGraph

/-! ## Deadlines -/

namespace Deadline

variable {d : Deadline} {duration : Duration}

/-- There is nothing to give up for: no cancel, and no limit that has run out. -/
structure IsLive (d : Deadline) : Prop where
  cancelled_eq : d.cancelled = false
  reached_eq : ∀ limit, d.limit = some limit → limit.reached = false

theorem abortReason?_of_cancelled (h : d.cancelled = true) : d.abortReason? = some .cancelled := by
  rw [abortReason?, if_pos h]

theorem abortReason?_of_reached (h : d.cancelled = false)
    (hlimit : d.limit = some ⟨duration, true⟩) :
    d.abortReason? = some (.timedOut duration) := by
  simp [abortReason?, h, hlimit]

theorem IsLive.silent (h : d.IsLive) : d.watch.Silent := by
  intro check
  obtain ⟨limit, cancelled⟩ := d
  obtain rfl : cancelled = false := h.cancelled_eq
  rcases limit with _ | ⟨duration, reached⟩
  · rfl
  · obtain rfl : reached = false := h.reached_eq ⟨duration, reached⟩ rfl
    rfl

/-- A deadline is cancelled, out of time or live. -/
theorem cancelled_or_reached_or_isLive (d : Deadline) :
    d.cancelled = true ∨
      (d.cancelled = false ∧ ∃ duration, d.limit = some ⟨duration, true⟩) ∨ d.IsLive := by
  obtain ⟨limit, cancelled⟩ := d
  rcases cancelled with _ | _
  · right
    rcases limit with _ | ⟨duration, _ | _⟩
    · exact .inr ⟨rfl, by simp⟩
    · exact .inr ⟨rfl, by simp⟩
    · exact .inl ⟨rfl, duration, rfl⟩
  · exact .inl rfl

end Deadline

/-! ## Kinds that search -/

/-- Queries of this kind search the graph for paths. -/
def QueryKind.Searches (kind : QueryKind) : Prop := kind = .allPaths ∨ kind = .somePath

theorem Query.searches_of_forall_mem {g : Graph} {query : Query} (hkind : query.kind.Searches)
    (hnames : ∀ name ∈ query.parameters, name ∈ g.nodes) : query.searches g := by
  cases query with
  | allPaths source target | somePath source target =>
    have hsource := Graph.contains_iff.mpr (hnames source (by simp [parameters]))
    have htarget := Graph.contains_iff.mpr (hnames target (by simp [parameters]))
    exact Bool.and_eq_true_iff.mpr ⟨hsource, htarget⟩
  | dependencies node | dependents node | member node => rcases hkind with h | h <;> cases h

theorem Query.not_searches {g : Graph} {query : Query} (hkind : ¬ query.kind.Searches) :
    ¬ query.searches g := by
  cases query with
  | allPaths source target => exact absurd (.inl rfl) hkind
  | somePath source target => exact absurd (.inr rfl) hkind
  | dependencies node | dependents node | member node => exact Bool.false_ne_true

namespace Engine

variable {e : Engine} {query : Query} {result : Except QueryError (List String)}

/-! ## The number of parameters -/

/-- The answer to a query given by its kind and parameters. The parameters are taken apart after
they have been looked up, and only then does their number count. -/
def dispatch (e : Engine) (kind : QueryKind) (parameters : List String) :
    Except QueryError (List String) := do
  let nodes ← e.resolveAll parameters
  match kind, nodes with
  | .dependencies, [node] => return e.graph.dependencies node
  | .dependents, [node] => return e.graph.dependents node
  | .member, [node] => return [node]
  | .allPaths, [source, target] =>
    let paths ← (e.graph.collectPaths source target e.watch).mapError .aborted
    return paths.map Path.text
  | .somePath, [source, target] =>
    let path ← (e.graph.findPath source target e.watch).mapError .aborted
    return path.toList.map Path.text
  | kind, nodes => .error (.arityMismatch kind kind.arity nodes.length)

/-- With the parameters of a query the number always fits. -/
theorem dispatch_kind_parameters (e : Engine) (query : Query) :
    e.dispatch query.kind query.parameters = e.execute query := by
  -- Both look all names up before they do anything else, and fail in the same way there.
  unfold dispatch execute
  rw [resolveAll_eq]
  split
  · cases query <;> rfl
  · rfl

/-- Other parameters may be nodes and still be too few. -/
example : ({ graph := tangled.view } : Engine).dispatch .allPaths ["a"] =
    .error (.arityMismatch .allPaths 2 1) := by decide +kernel

/-! ## The rules -/

/-- The deadline that a query runs under. -/
def effectiveDeadline (e : Engine) : Deadline := e.deadline.getD e.settings.deadline

/-- The nodes that are offered in place of a name. -/
def suggestions (e : Engine) (name : String) : List String :=
  Name.closest name e.graph.nodes e.settings.maxEditDistance e.settings.maxSuggestions

/-- What may come of a query. The first name that is no node fails it, whatever its kind and the
deadline; a cancel counts before a limit that has run out. -/
inductive Outcome (e : Engine) (query : Query) : Except QueryError (List String) → Prop
  | unknown {front back : List String} {name : String}
      (hsplit : query.parameters = front ++ name :: back)
      (hfront : ∀ earlier ∈ front, earlier ∈ e.graph.nodes) (hname : name ∉ e.graph.nodes) :
      e.Outcome query (.error (.unknownName name (e.suggestions name)))
  | cancelled (hnames : ∀ name ∈ query.parameters, name ∈ e.graph.nodes)
      (hkind : query.kind.Searches) (hcancelled : e.effectiveDeadline.cancelled = true) :
      e.Outcome query (.error (.aborted .cancelled))
  | timedOut {duration : Duration} (hnames : ∀ name ∈ query.parameters, name ∈ e.graph.nodes)
      (hkind : query.kind.Searches) (hcancelled : e.effectiveDeadline.cancelled = false)
      (hlimit : e.effectiveDeadline.limit = some ⟨duration, true⟩) :
      e.Outcome query (.error (.aborted (.timedOut duration)))
  | answered (hnames : ∀ name ∈ query.parameters, name ∈ e.graph.nodes)
      (hlive : ¬ query.kind.Searches ∨ e.effectiveDeadline.IsLive) :
      e.Outcome query (.ok (e.graph.answer query))

/-- Lookups do not ask the deadline. -/
theorem execute_of_not_searches (hnames : ∀ name ∈ query.parameters, name ∈ e.graph.nodes)
    (hkind : ¬ query.kind.Searches) : e.execute query = .ok (e.graph.answer query) := by
  rw [← execute_any_deadline (some {}) (Query.not_searches hkind)]
  exact @execute_of_forall_mem { e with deadline := some {} } query hnames fun _ => rfl

/-- An engine answers as the rules say. -/
theorem Outcome.execute_eq (h : e.Outcome query result) : e.execute query = result := by
  cases h with
  | @unknown front back name hsplit hfront hname =>
    have hfind : query.parameters.find? (· ∉ e.graph.nodes) = some name := by
      rw [List.find?_eq_some_iff_append]
      exact ⟨by simpa using hname, front, back, hsplit, by simpa using hfront⟩
    apply bind_eq_error_iff.mpr
    left
    rw [resolveAll_eq, hfind]
    rfl
  | cancelled hnames hkind hcancelled =>
    exact execute_of_stopped (Deadline.abortReason?_of_cancelled hcancelled)
      (Query.searches_of_forall_mem hkind hnames)
  | timedOut hnames hkind hcancelled hlimit =>
    exact execute_of_stopped (Deadline.abortReason?_of_reached hcancelled hlimit)
      (Query.searches_of_forall_mem hkind hnames)
  | answered hnames hlive =>
    rcases hlive with hkind | hlive
    · exact execute_of_not_searches hnames hkind
    · exact execute_of_forall_mem hnames hlive.silent

/-- There is a rule for every query. -/
theorem outcome_execute (e : Engine) (query : Query) : e.Outcome query (e.execute query) := by
  suffices h : ∃ result, e.Outcome query result by
    obtain ⟨result, h⟩ := h
    rwa [h.execute_eq]
  cases hfind : query.parameters.find? (· ∉ e.graph.nodes) with
  | some name =>
    obtain ⟨hname, front, back, hsplit, hfront⟩ := List.find?_eq_some_iff_append.mp hfind
    exact ⟨_, .unknown hsplit (by simpa using hfront) (by simpa using hname)⟩
  | none =>
    have hnames : ∀ name ∈ query.parameters, name ∈ e.graph.nodes := by simpa using hfind
    by_cases hkind : query.kind.Searches
    · rcases e.effectiveDeadline.cancelled_or_reached_or_isLive with
        hcancelled | ⟨hcancelled, duration, hlimit⟩ | hlive
      · exact ⟨_, .cancelled hnames hkind hcancelled⟩
      · exact ⟨_, .timedOut hnames hkind hcancelled hlimit⟩
      · exact ⟨_, .answered hnames (.inr hlive)⟩
    · exact ⟨_, .answered hnames (.inl hkind)⟩

theorem outcome_iff : e.Outcome query result ↔ e.execute query = result :=
  ⟨Outcome.execute_eq, fun h => h ▸ e.outcome_execute query⟩

theorem Outcome.ne_arityMismatch (h : e.Outcome query result) (kind : QueryKind)
    (expected actual : Nat) :
    result ≠ .error (.arityMismatch kind expected actual) := by
  rintro rfl
  cases h

/-- Only a search is aborted. -/
theorem Outcome.searches_of_aborted {reason : AbortReason}
    (h : e.Outcome query (.error (.aborted reason))) :
    query.kind.Searches := by
  cases h with
  | cancelled _ hkind _ => exact hkind
  | timedOut _ hkind _ _ => exact hkind

/-- What is offered in place of a name are nodes. -/
theorem not_mem_suggestions {name : String} (hname : name ∉ e.graph.nodes) :
    name ∉ e.suggestions name :=
  fun h => hname (Name.mem_of_mem_closest h)

/-- **Outcomes.** A kind and parameters that make a query are answered as the rules say and in no
other way, under every deadline that stays as it is. So their number is not found wrong any more, a
name is never offered in its own place, and only searches for paths are aborted. -/
theorem dispatch_outcomes (e : Engine) (kind : QueryKind) (parameters : List String) (query : Query)
    (hquery : Query.ofParameters kind parameters = .ok query) :
    e.dispatch kind parameters = e.execute query ∧
    (∀ result, e.execute query = result ↔ e.Outcome query result) ∧
    (∀ kind' expected actual, e.execute query ≠ .error (.arityMismatch kind' expected actual)) ∧
    (∀ name ∉ e.graph.nodes, name ∉ e.suggestions name) ∧
    (¬ kind.Searches → ∀ reason, e.execute query ≠ .error (.aborted reason)) := by
  obtain ⟨rfl, rfl⟩ := Query.kind_parameters_of_ofParameters hquery
  have houtcome := e.outcome_execute query
  refine ⟨e.dispatch_kind_parameters query, fun _ => outcome_iff.symm, houtcome.ne_arityMismatch,
    fun _ => not_mem_suggestions, ?_⟩
  intro hkind reason hresult
  rw [hresult] at houtcome
  exact hkind houtcome.searches_of_aborted

/-- A path from a node to itself would need no step, and is not looked for: the deadline is
cancelled, and its limit has run out as well. A node that is missing fails the query all
the same. -/
theorem dispatch_outcomes_cancelled :
    let deadline : Deadline := { limit := some ⟨.ofMillis 5, true⟩, cancelled := true }
    let e : Engine := { graph := tangled.view, deadline := some deadline }
    Query.ofParameters .allPaths ["a", "a"] = .ok (.allPaths "a" "a") ∧
    Query.ofParameters .somePath ["a", "bb"] = .ok (.somePath "a" "bb") ∧
    e.dispatch .allPaths ["a", "a"] = .error (.aborted .cancelled) ∧
    e.dispatch .somePath ["a", "bb"] = .error (.unknownName "bb" ["b"]) ∧
    "bb" ∉ e.suggestions "bb" := by
  intro deadline e
  have hpaths : Query.ofParameters .allPaths ["a", "a"] = .ok (.allPaths "a" "a") := rfl
  have hpath : Query.ofParameters .somePath ["a", "bb"] = .ok (.somePath "a" "bb") := rfl
  obtain ⟨hdispatch, hrules, -, -, -⟩ := dispatch_outcomes e _ _ _ hpaths
  obtain ⟨hdispatch', hrules', -, hoffered, -⟩ := dispatch_outcomes e _ _ _ hpath
  have hmissing : "bb" ∉ e.graph.nodes := by decide +kernel
  have hsuggestions : e.suggestions "bb" = ["b"] := by decide +kernel
  refine ⟨hpaths, hpath, hdispatch.trans ((hrules _).mpr (.cancelled ?_ (.inl rfl) rfl)),
    hdispatch'.trans ((hrules' _).mpr ?_), hoffered "bb" hmissing⟩
  · decide +kernel
  · rw [← hsuggestions]
    exact @Outcome.unknown e (.somePath "a" "bb") ["a"] [] "bb" rfl (by decide +kernel) hmissing

end Engine

end BindingGraph
