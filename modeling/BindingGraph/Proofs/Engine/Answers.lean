import BindingGraph.Proofs.Engine.Paths

/-!
# How an engine answers a query

The names of a query are looked up before anything else, and the first that is not a node fails
it (`Engine.resolveAll_eq`). Behind that only a stopped search can fail, so the failures of an
engine are unknown names and stopped searches (`Engine.execute_error`). Where no search is
stopped, what is answered about nodes is a matter of the graph (`Graph.answer`,
`Engine.execute_eq`); to a query for all paths between two nodes these are the texts of the paths
that the recursion lists (`Engine.execute_allPaths_eq`).
-/

namespace BindingGraph

section Failures

variable {ε ε' α β : Type}

theorem bind_eq_error_iff {x : Except ε α} {f : α → Except ε β} {error : ε} :
    x >>= f = .error error ↔ x = .error error ∨ ∃ a, x = .ok a ∧ f a = .error error := by
  cases x <;> simp [bind, Except.bind]

theorem mapError_eq_error_iff {x : Except ε α} {f : ε → ε'} {error : ε'} :
    x.mapError f = .error error ↔ ∃ reason, x = .error reason ∧ f reason = error := by
  cases x <;> simp [Except.mapError]

end Failures

/-- The failure is about a name that is no node. -/
def QueryError.IsUnknownName (error : QueryError) : Prop :=
  ∃ name suggestions, error = .unknownName name suggestions

/-- Without a time limit no search is stopped. -/
theorem Settings.silent_deadline {settings : Settings} (h : settings.timeoutMillis = none) :
    settings.deadline.watch.Silent := by
  intro check
  simp [deadline, h, Deadline.ofMillis?, Deadline.watch, Deadline.abortReason?]

/-- The answer to a query about nodes, as far as it is a matter of the graph. -/
def Graph.answer (g : Graph) : Query → List String
  | .dependencies node => g.dependencies node
  | .dependents node => g.dependents node
  | .member node => [node]
  | .allPaths source target => ((g.pathsFrom target [] source).map Path.mk).map Path.text
  | .somePath source target =>
    ((g.pathsFrom target [] source).map Path.mk).head?.toList.map Path.text

namespace Engine

variable {e : Engine} {names : List String} {error : QueryError} {source target : String}

/-! ## The names of a query -/

/-- The names of a query are looked up in order, up to the first that is no node. -/
theorem resolveAll_eq (e : Engine) (names : List String) :
    e.resolveAll names =
      match names.find? (· ∉ e.graph.nodes) with
      | none => .ok names
      | some name =>
        .error (.unknownName name
          (Name.closest name e.graph.nodes e.settings.maxEditDistance
            e.settings.maxSuggestions)) := by
  induction names with
  | nil => rfl
  | cons name names ih =>
    by_cases hname : name ∈ e.graph.nodes
    · rw [resolveAll, resolve_of_mem hname, ih, List.find?_cons_of_neg (by simpa using hname)]
      cases names.find? (· ∉ e.graph.nodes) <;> rfl
    · have hcontains : ¬ e.graph.contains name = true := fun h => hname (Graph.contains_iff.mp h)
      rw [resolveAll, resolve, if_neg hcontains, List.find?_cons_of_pos (by simpa using hname)]
      rfl

theorem resolveAll_of_forall_mem (h : ∀ name ∈ names, name ∈ e.graph.nodes) :
    e.resolveAll names = .ok names := by
  have hfind : names.find? (· ∉ e.graph.nodes) = none := by simpa using h
  rw [resolveAll_eq, hfind]

theorem resolveAll_of_not_mem {name : String} (hname : name ∈ names) (h : name ∉ e.graph.nodes) :
    ∃ error, error.IsUnknownName ∧ e.resolveAll names = .error error := by
  have hfind : (names.find? (· ∉ e.graph.nodes)).isSome := by simpa using ⟨name, hname, h⟩
  obtain ⟨unknown, hunknown⟩ := Option.isSome_iff_exists.mp hfind
  exact ⟨_, ⟨unknown, _, rfl⟩, by rw [resolveAll_eq, hunknown]⟩

theorem resolveAll_error (h : e.resolveAll names = .error error) : error.IsUnknownName := by
  rw [resolveAll_eq] at h
  split at h
  · cases h
  · cases h
    exact ⟨_, _, rfl⟩

/-! ## Whole queries -/

/-- An engine fails because a name is unknown or because its search was stopped. -/
theorem execute_error {query : Query} (h : e.execute query = .error error) :
    error.isAborted = true ∨ error.IsUnknownName := by
  rcases bind_eq_error_iff.mp h with h | ⟨_, -, h⟩
  · exact .inr (resolveAll_error h)
  · left
    cases query with
    | dependencies node => cases h
    | dependents node => cases h
    | member node => cases h
    | allPaths source target =>
      rcases bind_eq_error_iff.mp h with h | ⟨_, -, h⟩
      · obtain ⟨reason, -, rfl⟩ := mapError_eq_error_iff.mp h
        rfl
      · cases h
    | somePath source target =>
      rcases bind_eq_error_iff.mp h with h | ⟨_, -, h⟩
      · obtain ⟨reason, -, rfl⟩ := mapError_eq_error_iff.mp h
        rfl
      · cases h

/-- A query about a name that is no node fails with an unknown name, whatever the search
would do. -/
theorem execute_of_not_mem (query : Query) {name : String} (hname : name ∈ query.parameters)
    (h : name ∉ e.graph.nodes) :
    ∃ error, error.IsUnknownName ∧ e.execute query = .error error := by
  obtain ⟨error, hunknown, herror⟩ := resolveAll_of_not_mem hname h
  exact ⟨error, hunknown, bind_eq_error_iff.mpr (.inl herror)⟩

/-- Where no search is stopped, a query whose names are nodes is answered from the graph alone. -/
theorem execute_eq (query : Query) (hwatch : e.watch.Silent) :
    e.execute query = (fun _ => e.graph.answer query) <$> e.resolveAll query.parameters := by
  unfold execute
  cases e.resolveAll query.parameters with
  | error error => rfl
  | ok names =>
    cases query with
    | dependencies node => rfl
    | dependents node => rfl
    | member node => rfl
    | allPaths source target =>
      show (e.graph.collectPaths source target e.watch).mapError QueryError.aborted >>= _ = _
      rw [Graph.collectPaths_eq _ _ _ hwatch]
      rfl
    | somePath source target =>
      show (e.graph.findPath source target e.watch).mapError QueryError.aborted >>= _ = _
      rw [Graph.findPath_eq _ _ _ hwatch]
      rfl

theorem execute_of_forall_mem {query : Query}
    (hnames : ∀ name ∈ query.parameters, name ∈ e.graph.nodes) (hwatch : e.watch.Silent) :
    e.execute query = .ok (e.graph.answer query) := by
  rw [execute_eq query hwatch, resolveAll_of_forall_mem hnames]
  rfl

/-- The paths between two nodes, in words, where the search is not stopped. -/
theorem execute_allPaths_eq (hsource : source ∈ e.graph.nodes) (htarget : target ∈ e.graph.nodes)
    (hwatch : e.watch.Silent) :
    e.execute (.allPaths source target) =
      .ok (((e.graph.pathsFrom target [] source).map Path.mk).map Path.text) := by
  refine execute_of_forall_mem ?_ hwatch
  intro name hname
  rcases List.mem_pair.mp hname with rfl | rfl
  · exact hsource
  · exact htarget

end Engine

end BindingGraph
