import BindingGraph.Proofs.Engine.Answers

/-!
# What of an answer depends on the deadline

Only a search for paths looks at the deadline, and it is made only between two nodes
(`Query.searches`). If the watch says to give up from the start, such a query is aborted with the
reason that the watch gives (`Engine.execute_of_stopped`). Any other query is answered as under
every other deadline (`Engine.execute_any_deadline`), and under a watch that says nothing no query
is aborted at all (`Engine.execute_ne_aborted`). A query for paths is answered as is the request for
the paths themselves (`Engine.execute_allPaths`, `Engine.execute_somePath`), for which all this is
proved first.
-/

namespace BindingGraph

/-- Both names are nodes, so that there is something to search. -/
def Graph.containsBoth (g : Graph) (source target : String) : Bool :=
  g.contains source && g.contains target

/-- The endpoints of the paths that a query asks for. -/
def Query.ends? : Query → Option (String × String)
  | .allPaths source target | .somePath source target => some (source, target)
  | _ => none

/-- Whether a query has a graph searched for paths. -/
def Query.searches (g : Graph) (query : Query) : Bool :=
  query.ends?.any fun (source, target) => g.containsBoth source target

section Failures

variable {ε α β : Type} {x : Except ε α} {error : ε}

theorem map_eq_error_iff {f : α → β} : f <$> x = .error error ↔ x = .error error := by
  cases x <;> simp [Functor.map, Except.map]

theorem map_of_error {f : α → β} (h : x = .error error) : f <$> x = .error error :=
  map_eq_error_iff.mpr h

end Failures

theorem QueryError.IsUnknownName.ne_aborted {error : QueryError} (h : error.IsUnknownName)
    (reason : AbortReason) : error ≠ .aborted reason := by
  obtain ⟨name, suggestions, rfl⟩ := h
  intro heq
  cases heq

namespace Engine

variable {e : Engine} {source target : String} {reason : AbortReason}

/-! ## Names come first -/

/-- Looking two names up one after the other is looking both up. -/
theorem resolve_bind_resolve {α : Type} (e : Engine) (source target : String)
    (search : String → String → Except QueryError α) :
    (e.resolve source >>= fun source => e.resolve target >>= fun target => search source target) =
      e.resolveAll [source, target] >>= fun _ => search source target := by
  simp only [resolveAll, resolve]
  by_cases hsource : e.graph.contains source
  · by_cases htarget : e.graph.contains target
    · rw [if_pos hsource, if_pos htarget]
      rfl
    · rw [if_pos hsource, if_neg htarget]
      rfl
  · rw [if_neg hsource]
    rfl

theorem allPaths_eq_bind (e : Engine) (source target : String) :
    e.allPaths source target = e.resolveAll [source, target] >>= fun _ =>
      (e.graph.collectPaths source target e.watch).mapError .aborted :=
  e.resolve_bind_resolve source target _

theorem somePath_eq_bind (e : Engine) (source target : String) :
    e.somePath source target = e.resolveAll [source, target] >>= fun _ =>
      (e.graph.findPath source target e.watch).mapError .aborted :=
  e.resolve_bind_resolve source target _

theorem execute_allPaths (e : Engine) (source target : String) :
    e.execute (.allPaths source target) = List.map Path.text <$> e.allPaths source target := by
  rw [allPaths_eq_bind]
  unfold execute
  show e.resolveAll [source, target] >>= _ = _
  cases e.resolveAll [source, target] with
  | error error => rfl
  | ok names =>
    show (e.graph.collectPaths source target e.watch).mapError QueryError.aborted >>= _ = _
    cases e.graph.collectPaths source target e.watch <;> rfl

theorem execute_somePath (e : Engine) (source target : String) :
    e.execute (.somePath source target) =
      (fun path => path.toList.map Path.text) <$> e.somePath source target := by
  rw [somePath_eq_bind]
  unfold execute
  show e.resolveAll [source, target] >>= _ = _
  cases e.resolveAll [source, target] with
  | error error => rfl
  | ok names =>
    show (e.graph.findPath source target e.watch).mapError QueryError.aborted >>= _ = _
    cases e.graph.findPath source target e.watch <;> rfl

theorem resolveAll_of_containsBoth (h : e.graph.containsBoth source target) :
    e.resolveAll [source, target] = .ok [source, target] := by
  obtain ⟨hsource, htarget⟩ := Bool.and_eq_true_iff.mp h
  apply resolveAll_of_forall_mem
  intro name hname
  rcases List.mem_pair.mp hname with rfl | rfl
  · exact Graph.contains_iff.mp hsource
  · exact Graph.contains_iff.mp htarget

theorem resolveAll_of_not_containsBoth (h : ¬ e.graph.containsBoth source target) :
    ∃ error, e.resolveAll [source, target] = .error error := by
  by_cases hsource : source ∈ e.graph.nodes
  · have htarget : target ∉ e.graph.nodes := by
      intro htarget
      exact h (Bool.and_eq_true_iff.mpr
        ⟨Graph.contains_iff.mpr hsource, Graph.contains_iff.mpr htarget⟩)
    obtain ⟨error, -, herror⟩ := resolveAll_of_not_mem (List.mem_pair.mpr (.inr rfl)) htarget
    exact ⟨error, herror⟩
  · obtain ⟨error, -, herror⟩ := resolveAll_of_not_mem (List.mem_pair.mpr (.inl rfl)) hsource
    exact ⟨error, herror⟩

/-! ## A watch that gives up from the start -/

theorem allPaths_of_stopped (hwatch : e.watch 0 = some reason)
    (hboth : e.graph.containsBoth source target) :
    e.allPaths source target = .error (.aborted reason) := by
  rw [allPaths_eq_bind, resolveAll_of_containsBoth hboth,
    Graph.collectPaths_of_stopped _ _ _ hwatch]
  rfl

theorem somePath_of_stopped (hwatch : e.watch 0 = some reason)
    (hboth : e.graph.containsBoth source target) :
    e.somePath source target = .error (.aborted reason) := by
  rw [somePath_eq_bind, resolveAll_of_containsBoth hboth, Graph.findPath_of_stopped _ _ _ hwatch]
  rfl

theorem execute_of_stopped (hwatch : e.watch 0 = some reason) {query : Query}
    (hquery : query.searches e.graph) : e.execute query = .error (.aborted reason) := by
  cases query with
  | dependencies node => cases hquery
  | dependents node => cases hquery
  | member node => cases hquery
  | allPaths source target =>
    rw [execute_allPaths]
    exact map_of_error (allPaths_of_stopped hwatch hquery)
  | somePath source target =>
    rw [execute_somePath]
    exact map_of_error (somePath_of_stopped hwatch hquery)

/-! ## A watch that says nothing -/

theorem resolve_ne_aborted (e : Engine) (name : String) (reason : AbortReason) :
    e.resolve name ≠ .error (.aborted reason) := by
  unfold resolve
  split
  · intro h
    cases h
  · intro h
    cases h

theorem execute_ne_aborted (hwatch : e.watch.Silent) (query : Query) (reason : AbortReason) :
    e.execute query ≠ .error (.aborted reason) := by
  intro h
  rw [execute_eq query hwatch, map_eq_error_iff] at h
  exact (resolveAll_error h).ne_aborted reason rfl

theorem allPaths_ne_aborted (hwatch : e.watch.Silent) (source target : String)
    (reason : AbortReason) :
    e.allPaths source target ≠ .error (.aborted reason) := by
  intro h
  refine execute_ne_aborted hwatch (.allPaths source target) reason ?_
  rw [execute_allPaths]
  exact map_of_error h

theorem somePath_ne_aborted (hwatch : e.watch.Silent) (source target : String)
    (reason : AbortReason) :
    e.somePath source target ≠ .error (.aborted reason) := by
  intro h
  refine execute_ne_aborted hwatch (.somePath source target) reason ?_
  rw [execute_somePath]
  exact map_of_error h

/-! ## Answers under any deadline -/

theorem resolveAll_any_deadline (e : Engine) (deadline : Option Deadline) (names : List String) :
    ({ e with deadline } : Engine).resolveAll names = e.resolveAll names := by
  rw [resolveAll_eq, resolveAll_eq]

theorem allPaths_any_deadline (deadline : Option Deadline)
    (h : ¬ e.graph.containsBoth source target) :
    ({ e with deadline } : Engine).allPaths source target = e.allPaths source target := by
  obtain ⟨error, herror⟩ := resolveAll_of_not_containsBoth h
  rw [allPaths_eq_bind, allPaths_eq_bind, resolveAll_any_deadline, herror]
  rfl

theorem somePath_any_deadline (deadline : Option Deadline)
    (h : ¬ e.graph.containsBoth source target) :
    ({ e with deadline } : Engine).somePath source target = e.somePath source target := by
  obtain ⟨error, herror⟩ := resolveAll_of_not_containsBoth h
  rw [somePath_eq_bind, somePath_eq_bind, resolveAll_any_deadline, herror]
  rfl

theorem execute_any_deadline (deadline : Option Deadline) {query : Query}
    (hquery : ¬ query.searches e.graph) :
    ({ e with deadline } : Engine).execute query = e.execute query := by
  cases query with
  | dependencies node => rfl
  | dependents node => rfl
  | member node => rfl
  | allPaths source target =>
    rw [execute_allPaths, execute_allPaths, allPaths_any_deadline deadline hquery]
  | somePath source target =>
    rw [execute_somePath, execute_somePath, somePath_any_deadline deadline hquery]

end Engine

end BindingGraph
