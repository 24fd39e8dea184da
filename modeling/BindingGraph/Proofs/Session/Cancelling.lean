import BindingGraph.Proofs.Engine.Deadlines
import BindingGraph.Session

/-!
# Cancelling a session

A session with a fixed deadline runs its searches under that deadline and never under the time
limit of its settings. Before the handle is triggered only the limit of the deadline can stop a
search; from then on every search is stopped at its first step, and what does not look at the
handle is answered as if nothing had happened (`Session.timedRun_cancelling`). The limit may run
out between two requests; a run of the session as such, in which it stays as it is, is the special
case `Session.run_eq_timedRun`.

A request changes the settings and the handle and nothing else, and it never takes a trigger back
(`Session.after_eq`); so the state after any number of requests is known from the last settings and
from whether there was a cancel among them (`Session.afterAll_eq`). What is left is what a single
answer takes from the state.
-/

namespace BindingGraph

theorem Query.ofWords_ne_aborted (kind : String) (parameters : List String) (reason : AbortReason) :
    Query.ofWords kind parameters ≠ .error (.aborted reason) := by
  unfold Query.ofWords Query.ofParameters
  intro h
  split at h
  · split at h <;> cases h
  · cases h

namespace Session

/-! ## Requests -/

namespace Request

/-- The request triggers the handle. -/
def isCancel : Request → Bool
  | .cancel => true
  | _ => false

/-- The request has the graph searched for paths under the deadline of the session, which a plain
query does not run under. -/
def searches (g : Graph) : Request → Bool
  | .query kind parameters =>
    match Query.ofWords kind parameters with
    | .ok parsed => parsed.searches g
    | .error _ => false
  | .allPaths source target | .somePath source target => g.containsBoth source target
  | _ => false

/-- The answer to the request depends on the handle. -/
def heeds (g : Graph) : Request → Bool
  | .isCancelled | .check => true
  | request => request.searches g

/-- The settings after the request. -/
def settingsAfter (settings : Settings) : Request → Settings
  | .configure settings => settings
  | _ => settings

end Request

variable {s : Session} {request : Request} {requests : List Request} {limit : Option Limit}
  {reason : AbortReason}

/-! ## What requests do to a session -/

/-- One request replaces the settings or triggers the handle, and leaves the rest alone. -/
theorem after_eq (s : Session) (request : Request) :
    s.after request =
      { s with
        settings := request.settingsAfter s.settings
        cancelled := s.cancelled || request.isCancel } := by
  cases request with
  | cancel => simp [after, Request.settingsAfter, Request.isCancel]
  | _ => simp [after, Request.settingsAfter, Request.isCancel]

/-- The session after a sequence of requests. -/
def afterAll (s : Session) (requests : List Request) : Session :=
  requests.foldl after s

theorem afterAll_eq (s : Session) (requests : List Request) :
    s.afterAll requests =
      { s with
        settings := requests.foldl Request.settingsAfter s.settings
        cancelled := s.cancelled || requests.any Request.isCancel } := by
  induction requests generalizing s with
  | nil => simp [afterAll]
  | cons request requests ih =>
    have hstep : s.afterAll (request :: requests) = (s.after request).afterAll requests := rfl
    rw [hstep, ih, after_eq, List.foldl_cons, List.any_cons, Bool.or_assoc]

theorem graph_afterAll (s : Session) (requests : List Request) :
    (s.afterAll requests).graph = s.graph := by
  rw [afterAll_eq]

theorem fixed_afterAll (s : Session) (requests : List Request) :
    (s.afterAll requests).fixed = s.fixed := by
  rw [afterAll_eq]

theorem cancellable_afterAll (s : Session) (requests : List Request) :
    (s.afterAll requests).cancellable = s.cancellable := by
  rw [afterAll_eq]

theorem cancelled_afterAll (s : Session) (requests : List Request) :
    (s.afterAll requests).cancelled = (s.cancelled || requests.any Request.isCancel) := by
  rw [afterAll_eq]

theorem foldl_settingsAfter_filter (settings : Settings) (requests : List Request) :
    (requests.filter (!·.isCancel)).foldl Request.settingsAfter settings =
      requests.foldl Request.settingsAfter settings := by
  induction requests generalizing settings with
  | nil => rfl
  | cons request requests ih =>
    cases hcancel : request.isCancel with
    | false => simp [hcancel, ih]
    | true =>
      have hsettings : request.settingsAfter settings = settings := by
        cases request with
        | cancel => rfl
        | _ => cases hcancel
      simp [hcancel, hsettings, ih]

/-- Leave out what triggers the handle, and the session only differs in the handle. -/
theorem afterAll_filter (s : Session) (requests : List Request) :
    s.afterAll (requests.filter (!·.isCancel)) =
      { s.afterAll requests with cancelled := s.cancelled } := by
  have hnone : (requests.filter (!·.isCancel)).any Request.isCancel = false := by simp
  rw [afterAll_eq, afterAll_eq, foldl_settingsAfter_filter, hnone, Bool.or_false]

/-! ## What an answer takes from the session -/

theorem respond_check_of_stopped (hwatch : s.engine.watch 0 = some reason) :
    s.respond .check = .error (.aborted reason) := by
  have hreason : (s.deadline?.getD s.settings.deadline).abortReason? = some reason := hwatch
  simp only [respond, hreason]

theorem respond_of_stopped (hwatch : s.engine.watch 0 = some reason)
    (hsearches : request.searches s.graph) : s.respond request = .error (.aborted reason) := by
  cases request with
  | query kind parameters =>
    simp only [Request.searches] at hsearches
    simp only [respond]
    cases hquery : Query.ofWords kind parameters with
    | error error => simp [hquery] at hsearches
    | ok query =>
      rw [hquery] at hsearches
      exact map_of_error (Engine.execute_of_stopped hwatch hsearches)
  | allPaths source target => exact map_of_error (Engine.allPaths_of_stopped hwatch hsearches)
  | somePath source target => exact map_of_error (Engine.somePath_of_stopped hwatch hsearches)
  | _ => cases hsearches

/-- What does not heed the handle is answered alike before and after it is triggered. -/
theorem respond_of_not_heeds (cancelled : Bool) (h : ¬ request.heeds s.graph) :
    ({ s with cancelled } : Session).respond request = s.respond request := by
  cases request with
  | query kind parameters =>
    simp only [Request.heeds, Request.searches] at h
    simp only [respond]
    cases hquery : Query.ofWords kind parameters with
    | error error => rfl
    | ok query =>
      rw [hquery] at h
      have hanswer := Engine.execute_any_deadline ({ s with cancelled } : Session).deadline?
        (show ¬ query.searches s.engine.graph from h)
      exact congrArg (Response.names <$> ·) hanswer
  | allPaths source target =>
    have hanswer := Engine.allPaths_any_deadline ({ s with cancelled } : Session).deadline?
      (show ¬ s.engine.graph.containsBoth source target from h)
    exact congrArg (Response.paths <$> ·) hanswer
  | somePath source target =>
    have hanswer := Engine.somePath_any_deadline ({ s with cancelled } : Session).deadline?
      (show ¬ s.engine.graph.containsBoth source target from h)
    exact congrArg (Response.path <$> ·) hanswer
  | resolveAll names =>
    exact congrArg (Response.names <$> ·)
      (s.engine.resolveAll_any_deadline ({ s with cancelled } : Session).deadline? names)
  | isCancelled => exact absurd rfl h
  | check => exact absurd rfl h
  | _ => rfl

/-- As long as the watch says nothing no answer is that something was stopped. -/
theorem respond_ne_aborted (hwatch : s.engine.watch.Silent) (request : Request)
    (reason : AbortReason) :
    s.respond request ≠ .error (.aborted reason) := by
  intro h
  cases request with
  | query kind parameters =>
    rcases bind_eq_error_iff.mp h with h | ⟨query, -, h⟩
    · exact Query.ofWords_ne_aborted kind parameters reason h
    · exact Engine.execute_ne_aborted hwatch query reason (map_eq_error_iff.mp h)
  | plainQuery kind parameters =>
    rcases bind_eq_error_iff.mp h with h | ⟨query, -, h⟩
    · exact Query.ofWords_ne_aborted kind parameters reason h
    · exact Engine.execute_ne_aborted (fun _ => rfl) query reason (map_eq_error_iff.mp h)
  | dependencies node =>
    rcases bind_eq_error_iff.mp (map_eq_error_iff.mp h) with h | ⟨_, -, h⟩
    · exact Engine.resolve_ne_aborted _ node reason h
    · cases h
  | dependents node =>
    rcases bind_eq_error_iff.mp (map_eq_error_iff.mp h) with h | ⟨_, -, h⟩
    · exact Engine.resolve_ne_aborted _ node reason h
    · cases h
  | member node => exact Engine.resolve_ne_aborted _ node reason (map_eq_error_iff.mp h)
  | allPaths source target =>
    exact Engine.allPaths_ne_aborted hwatch source target reason (map_eq_error_iff.mp h)
  | somePath source target =>
    exact Engine.somePath_ne_aborted hwatch source target reason (map_eq_error_iff.mp h)
  | resolve name => exact Engine.resolve_ne_aborted _ name reason (map_eq_error_iff.mp h)
  | resolveAll names =>
    exact (Engine.resolveAll_error (map_eq_error_iff.mp h)).ne_aborted reason rfl
  | check =>
    have hnone : (s.deadline?.getD s.settings.deadline).abortReason? = none := hwatch 0
    simp only [respond, hnone] at h
    cases h
  | _ => cases h

/-! ## Requests while time passes -/

/-- A request, and whether it comes after the limit of the fixed deadline has run out. -/
structure Timed where
  late : Bool
  request : Request

/-- The session when the limit of its fixed deadline has run out, or has not. -/
def seen (s : Session) (late : Bool) : Session :=
  { s with fixed := s.fixed.map fun limit => limit.map fun l => { l with reached := late } }

/-- With a fixed deadline the time limit of the settings does not count. -/
theorem watch_seen (hfixed : s.fixed = some limit) (hcancellable : s.cancellable = true)
    (late : Bool) :
    (s.seen late).engine.watch =
      (Deadline.mk (limit.map fun l => { l with reached := late }) s.cancelled).watch := by
  simp [Engine.watch, engine, deadline?, seen, hfixed, hcancellable]

/-- The answers to requests that are made one after the other while time passes. -/
def timedRun (s : Session) : List Timed → List (Except QueryError Response)
  | [] => []
  | timed :: rest =>
    (s.seen timed.late).respond timed.request :: (s.after timed.request).timedRun rest

/-- Whether the limit of the fixed deadline, if there is one, has run out. -/
def reached (s : Session) : Bool :=
  match s.fixed with
  | some (some limit) => limit.reached
  | _ => false

theorem seen_reached (s : Session) : s.seen s.reached = s := by
  obtain ⟨graph, settings, fixed, cancellable, cancelled⟩ := s
  rcases fixed with _ | _ | limit <;> rfl

theorem run_eq_timedRun (s : Session) (requests : List Request) :
    s.run requests = s.timedRun (requests.map fun request => ⟨s.reached, request⟩) := by
  induction requests generalizing s with
  | nil => rfl
  | cons request requests ih =>
    have hreached : (s.after request).reached = s.reached := by
      rw [after_eq]
      rfl
    rw [run, List.map_cons, timedRun, seen_reached, ih, hreached]

theorem getElem?_timedRun (s : Session) (front : List Timed) (timed : Timed) (rest : List Timed) :
    (s.timedRun (front ++ timed :: rest))[front.length]? =
      some (((s.afterAll (front.map (·.request))).seen timed.late).respond timed.request) := by
  induction front generalizing s with
  | nil => rfl
  | cons first front ih =>
    have hstep : s.afterAll ((first :: front).map (·.request)) =
        (s.after first.request).afterAll (front.map (·.request)) := rfl
    rw [hstep, ← ih]
    rfl

/-- **Cancelling.** In a session whose fixed deadline obeys a handle, requests are made one after
the other, while the limit of the deadline may run out. As long as there was no cancel, a request
made before the limit has run out is never aborted, whatever settings were chosen. After a cancel,
no matter what came in between, the handle shows as triggered, the deadline as cancelled, and every
search for paths between two nodes is aborted for that reason, also when the limit has run out as
well. Every request that does not heed the handle has the answer that it has if the cancels before
it are left out. -/
theorem timedRun_cancelling (s : Session) (limit : Option Limit) (hfixed : s.fixed = some limit)
    (hcancellable : s.cancellable = true) (hfresh : s.cancelled = false) (front : List Timed)
    (timed : Timed) (rest : List Timed) :
    ∃ answer, (s.timedRun (front ++ timed :: rest))[front.length]? = some answer ∧
      ((∀ earlier ∈ front, ¬ earlier.request.isCancel) → (limit.isSome → timed.late = false) →
        ∀ reason, answer ≠ .error (.aborted reason)) ∧
      ((∃ earlier ∈ front, earlier.request.isCancel) →
        (timed.request = .isCancelled → answer = .ok (.flag true)) ∧
        (timed.request = .check → answer = .error (.aborted .cancelled)) ∧
        (timed.request.searches s.graph → answer = .error (.aborted .cancelled))) ∧
      (¬ timed.request.heeds s.graph →
        let kept := front.filter (!·.request.isCancel)
        (s.timedRun (kept ++ timed :: rest))[kept.length]? = some answer) := by
  have hwatch := watch_seen ((s.fixed_afterAll (front.map (·.request))).trans hfixed)
    ((s.cancellable_afterAll (front.map (·.request))).trans hcancellable) timed.late
  have hstate := s.cancelled_afterAll (front.map (·.request))
  rw [hfresh, Bool.false_or] at hstate
  rw [hstate] at hwatch
  refine ⟨_, s.getElem?_timedRun front timed rest, ?_, ?_, ?_⟩
  · intro hnone hlate
    have hany : (front.map (·.request)).any Request.isCancel = false := by simpa using hnone
    rw [hany] at hwatch
    refine respond_ne_aborted ?_ timed.request
    rw [hwatch]
    intro check
    cases limit with
    | none => rfl
    | some limit =>
      rw [hlate rfl]
      rfl
  · intro hsome
    have hany : (front.map (·.request)).any Request.isCancel = true := by simpa using hsome
    rw [hany] at hstate hwatch
    have hstop := congrFun hwatch 0
    refine ⟨?_, ?_, ?_⟩
    · intro hrequest
      rw [hrequest]
      show Except.ok (Response.flag (s.afterAll (front.map (·.request))).cancelled) = _
      rw [hstate]
    · intro hrequest
      rw [hrequest]
      exact respond_check_of_stopped hstop
    · intro hsearches
      apply respond_of_stopped hstop
      exact (s.graph_afterAll (front.map (·.request))).symm ▸ hsearches
  · intro hheeds
    have hkept : (front.filter (!·.request.isCancel)).map (·.request) =
        (front.map (·.request)).filter (!·.isCancel) := by
      rw [List.filter_map]
      rfl
    show (s.timedRun (_ ++ timed :: rest))[_]? = _
    rw [getElem?_timedRun, hkept, afterAll_filter]
    refine congrArg some
      (@respond_of_not_heeds ((s.afterAll (front.map (·.request))).seen timed.late) _ s.cancelled
        ?_)
    exact (s.graph_afterAll (front.map (·.request))).symm ▸ hheeds

/-- An hour that is not over, settings with no time at all, and a cancel after the first search; by
the last request the hour is over too. -/
theorem timedRun_cancelling_tangled :
    let s : Session :=
      { graph := tangled.view, fixed := some (some ⟨.ofMillis 3600000, false⟩),
        cancellable := true }
    let front : List Timed := [⟨false, .configure { timeoutMillis := some 0 }⟩]
    let search : Request := .allPaths "a" "c"
    s.cancelled = false ∧ search.searches s.graph ∧
      (∃ answer, (s.timedRun (front ++ [⟨false, search⟩]))[front.length]? = some answer ∧
        ∀ reason, answer ≠ .error (.aborted reason)) ∧
      let front := front ++ [⟨false, search⟩, ⟨false, .cancel⟩]
      (s.timedRun (front ++ [⟨true, search⟩]))[front.length]? =
        some (.error (.aborted .cancelled)) := by
  intro s front search
  have hsearches : search.searches s.graph := by decide
  obtain ⟨before, hbefore, hquiet, -⟩ :=
    timedRun_cancelling s _ rfl rfl rfl front ⟨false, search⟩ []
  obtain ⟨late, hlate, -, hcancelled, -⟩ :=
    timedRun_cancelling s _ rfl rfl rfl (front ++ [⟨false, search⟩, ⟨false, .cancel⟩])
      ⟨true, search⟩ []
  refine ⟨rfl, hsearches, ⟨before, hbefore, hquiet (by decide) fun _ => rfl⟩, ?_⟩
  rw [← (hcancelled (by decide)).2.2 hsearches]
  exact hlate

end Session

end BindingGraph
