import BindingGraph.Catalog
import BindingGraph.Proofs.Engine.Answers

/-!
# Joined outcomes

What a catalog answers is determined by what its graphs answer one by one
(`Catalog.execute_eq_joined`). The run itself is one pass that keeps the results and a single
failure. As long as no search is stopped, the pass comes to the same end if all results are put
together first and the failures are weighed afterwards (`Catalog.executeFrom_eq`). Of failures about
unknown names, and an engine has no others to weigh, the first misspelling is left, or the first of
all if there is none (`Catalog.foldl_moreTelling`).
-/

namespace BindingGraph.Catalog

variable {c : Catalog} {query : Query} {error : QueryError}

/-! ## Joining outcomes -/

section Outcomes

variable {outcomes : List (Except QueryError (List String))} {found : List String}

/-- The failures among outcomes, in order. -/
def failures (outcomes : List (Except QueryError (List String))) : List QueryError :=
  outcomes.filterMap fun
    | .ok _ => none
    | .error error => some error

/-- The results of the outcomes that are no failures, one after the other. -/
def results (outcomes : List (Except QueryError (List String))) : List String :=
  outcomes.flatMap fun
    | .ok found => found
    | .error _ => []

/-- What outcomes come to: the first stopped search; else the results, if there are any or nothing
failed; else the first misspelling, or the first failure if no name is misspelt. -/
def joined (outcomes : List (Except QueryError (List String))) : Except QueryError (List String) :=
  match (failures outcomes).find? QueryError.isAborted with
  | some stopped => .error stopped
  | none =>
    match failures outcomes with
    | [] => .ok (results outcomes)
    | first :: others =>
      if results outcomes ≠ [] then .ok (results outcomes)
      else .error (((first :: others).find? QueryError.isMisspelling).getD first)

theorem mem_failures_iff : error ∈ failures outcomes ↔ .error error ∈ outcomes := by
  unfold failures
  rw [List.mem_filterMap]
  constructor
  · rintro ⟨outcome, houtcome, h⟩
    cases outcome with
    | ok found => cases h
    | error failure =>
      cases h
      exact houtcome
  · intro h
    exact ⟨.error error, h, rfl⟩

theorem eq_results_of_joined (h : joined outcomes = .ok found) : found = results outcomes := by
  unfold joined at h
  split at h
  · cases h
  · split at h
    · exact (Except.ok.inj h).symm
    · split at h
      · exact (Except.ok.inj h).symm
      · cases h

/-- Where no search was stopped, joining fails if there are failures and no results. -/
theorem joined_fails_iff (h : ∀ error ∈ failures outcomes, error.isAborted = false) :
    (∃ error, joined outcomes = .error error) ↔ results outcomes = [] ∧ failures outcomes ≠ [] := by
  have hstopped : (failures outcomes).find? QueryError.isAborted = none := by simpa using h
  unfold joined
  rw [hstopped]
  cases failures outcomes with
  | nil => simp
  | cons first others =>
    by_cases hresults : results outcomes = []
    · simp [hresults]
    · simp [hresults]

end Outcomes

/-! ## The failure that is left -/

/-- Of two failures about unknown names the later is kept only if it alone tells of a
misspelling. -/
theorem moreTelling_eq {kept : QueryError} (hkept : kept.IsUnknownName)
    (herror : error.IsUnknownName) :
    moreTelling (some kept) error =
      if kept.isMisspelling = false ∧ error.isMisspelling = true then error else kept := by
  obtain ⟨name, suggestions, rfl⟩ := hkept
  obtain ⟨name', suggestions', rfl⟩ := herror
  cases suggestions <;> cases suggestions' <;> simp [moreTelling, rank, QueryError.isMisspelling]

/-- Weighing failures about unknown names one by one leaves the first misspelling, or the first. -/
theorem foldl_moreTelling {kept : QueryError} {errors : List QueryError}
    (h : ∀ error ∈ kept :: errors, error.IsUnknownName) :
    errors.foldl (fun failure error => some (moreTelling failure error)) (some kept) =
      some (((kept :: errors).find? QueryError.isMisspelling).getD kept) := by
  induction errors generalizing kept with
  | nil => cases hkept : kept.isMisspelling <;> simp [hkept]
  | cons error errors ih =>
    have hkept := h kept List.mem_cons_self
    have herror := h error (List.mem_cons_of_mem _ List.mem_cons_self)
    have hrest : ∀ other ∈ errors, other.IsUnknownName := by
      intro other hother
      exact h other (List.mem_cons_of_mem _ (List.mem_cons_of_mem _ hother))
    rw [List.foldl_cons, moreTelling_eq hkept herror]
    by_cases hgoes : kept.isMisspelling = false ∧ error.isMisspelling = true
    · rw [if_pos hgoes, ih (List.forall_mem_cons.mpr ⟨herror, hrest⟩)]
      simp [hgoes]
    · rw [if_neg hgoes, ih (List.forall_mem_cons.mpr ⟨hkept, hrest⟩)]
      cases hmisspelt : kept.isMisspelling with
      | true => simp [hmisspelt]
      | false =>
        have hplain : error.isMisspelling = false := by simpa [hmisspelt] using hgoes
        simp [hmisspelt, hplain]

/-! ## The pass over the graphs -/

/-- The answers of graphs, in order. -/
def answers (c : Catalog) (query : Query) (graphs : List NamedGraph) :
    List (Except QueryError (List String)) :=
  graphs.map fun named => (c.engine named).execute query

/-- A stopped search ends the pass; else the results can be put together before the failures are
weighed. -/
theorem executeFrom_eq (c : Catalog) (query : Query) (found : List String)
    (failure : Option QueryError) (graphs : List NamedGraph) :
    c.executeFrom query found failure graphs =
      match (failures (c.answers query graphs)).find? QueryError.isAborted with
      | some stopped => .error stopped
      | none =>
        c.executeFrom query (found ++ results (c.answers query graphs))
          ((failures (c.answers query graphs)).foldl
            (fun failure error => some (moreTelling failure error)) failure) [] := by
  induction graphs generalizing found failure with
  | nil => simp [answers, failures, results]
  | cons named graphs ih =>
    cases houtcome : (c.engine named).execute query with
    | ok more =>
      have hstep : c.executeFrom query found failure (named :: graphs) =
          c.executeFrom query (found ++ more) failure graphs := by
        rw [executeFrom, houtcome]
      rw [hstep, ih]
      simp [answers, failures, results, houtcome]
    | error error =>
      by_cases hstopped : error.isAborted = true
      · have hstep : c.executeFrom query found failure (named :: graphs) = .error error := by
          simp only [executeFrom, houtcome, if_pos hstopped]
        rw [hstep]
        simp [answers, failures, houtcome, hstopped]
      · have hstep : c.executeFrom query found failure (named :: graphs) =
            c.executeFrom query found (some (moreTelling failure error)) graphs := by
          simp only [executeFrom, houtcome, if_neg hstopped]
        rw [hstep, ih]
        simp [answers, failures, results, houtcome, hstopped]

/-- An engine that was not stopped has failed because of an unknown name. -/
theorem isUnknownName_of_mem_failures {graphs : List NamedGraph}
    (h : error ∈ failures (c.answers query graphs)) (hstopped : ¬ error.isAborted = true) :
    error.IsUnknownName := by
  obtain ⟨named, -, hexecute⟩ := List.mem_map.mp (mem_failures_iff.mp h)
  exact (Engine.execute_error hexecute).resolve_left hstopped

/-- The pass over graphs comes to what their answers come to. -/
theorem executeFrom_eq_joined (c : Catalog) (query : Query) (graphs : List NamedGraph) :
    c.executeFrom query [] none graphs = joined (c.answers query graphs) := by
  rw [executeFrom_eq, joined]
  cases hfind : (failures (c.answers query graphs)).find? QueryError.isAborted with
  | some stopped => rfl
  | none =>
    have hunknown : ∀ error ∈ failures (c.answers query graphs), error.IsUnknownName := by
      intro error herror
      exact isUnknownName_of_mem_failures herror (List.find?_eq_none.mp hfind error herror)
    cases hfailures : failures (c.answers query graphs) with
    | nil => rfl
    | cons first others =>
      rw [hfailures] at hunknown
      -- The first failure is kept whatever it says, and weighed against the others.
      have hfirst : moreTelling none first = first := rfl
      rw [List.foldl_cons, hfirst, foldl_moreTelling hunknown, List.nil_append, executeFrom]
      cases results (c.answers query graphs) <;> rfl

/-- **Joined answers.** There is one outcome to a graph, in the order of the catalog, and what the
whole catalog answers is determined by the outcomes. -/
theorem execute_eq_joined (c : Catalog) (query : Query) :
    (c.outcomes query).map GraphOutcome.graph = c.graphs.map NamedGraph.name ∧
      c.execute query = joined ((c.outcomes query).map GraphOutcome.outcome) := by
  have hnames : (c.outcomes query).map GraphOutcome.graph = c.graphs.map NamedGraph.name := by
    rw [outcomes, List.map_map]
    rfl
  have houtcomes : (c.outcomes query).map GraphOutcome.outcome = c.answers query c.graphs := by
    rw [outcomes, List.map_map]
    rfl
  refine ⟨hnames, ?_⟩
  rw [houtcomes]
  exact executeFrom_eq_joined c query c.graphs

end BindingGraph.Catalog
