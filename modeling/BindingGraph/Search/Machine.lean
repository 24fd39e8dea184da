import BindingGraph.Deadline
import BindingGraph.Graph.Basic
import BindingGraph.Path
import BindingGraph.Search.Trail

/-!
# The path search

A depth-first search with backtracking. It never steps onto a name that is on the current walk, so
every path it reports is simple and it ends on graphs with cycles. Instead of recursion the search
keeps one *frame* of pending dependencies for each name on its trail; a long chain of dependencies
costs memory and no stack. The watch is asked before every step.

`Search.advance` is one turn of the loop, from one loop head to the next, and `Search.Sound` says
what holds at every loop head. Soundness bounds the number of frames by the number of names
(`Sound.length_frames_le`), and with that bound each turn lowers `State.weight`
(`weight_lt_of_advance`), so the loop `Search.loop` ends.
-/

namespace BindingGraph

/-- What to search for, and whether to stop at the first path. -/
structure Search where
  graph : Graph
  source : String
  target : String
  firstOnly : Bool
  watch : Watch

namespace Search

/-- The state of a search at a loop head: beside the trail the pending dependencies of each name on
it, the number of checks that have been made and the paths reported. Frames and paths stand latest
first. -/
structure State where
  trail : Trail := {}
  frames : List (List String) := []
  checks : Nat := 0
  found : List Path := []

/-- What one turn of the loop leads to: the next loop head, the end of the search, because all is
explored or the first path was enough, or a stop because the watch said to give up. -/
inductive Turn where
  | next (state : State)
  | finished (state : State)
  | aborted (reason : AbortReason) (state : State)

/-- The first pending name that is not on the trail, and what is pending after it. -/
def nextUnvisited (trail : Trail) : List String → Option (String × List String)
  | [] => none
  | name :: rest => if trail.contains name then nextUnvisited trail rest else some (name, rest)

/-- Step onto a name. The target is reported and left at once; any other name gets a frame with its
dependencies. -/
def stepOnto (search : Search) (state : State) (name : String) : Turn :=
  match search.watch state.checks with
  | some reason => .aborted reason { state with checks := state.checks + 1 }
  | none =>
    let trail := state.trail.push name
    -- A path is reported with its target on the trail, which is left again at once.
    if name = search.target then
      let after : State :=
        { trail := trail.pop.2
          frames := state.frames
          checks := state.checks + 1
          found := ⟨trail.current⟩ :: state.found }
      if search.firstOnly then .finished after else .next after
    else
      .next
        { trail := trail
          frames := search.graph.dependencies name :: state.frames
          checks := state.checks + 1
          found := state.found }

/-- The step onto the source, before the first loop head. -/
def start (search : Search) : Turn := search.stepOnto {} search.source

/-- One turn of the loop: step onto the next pending name that is not on the trail, or step back
when there is none. -/
def advance (search : Search) (state : State) : Turn :=
  match state.frames with
  | [] => .finished state
  | pending :: frames =>
    match nextUnvisited state.trail pending with
    | some (name, rest) => search.stepOnto { state with frames := rest :: frames } name
    | none => .next { state with frames := frames, trail := state.trail.pop.2 }

/-! ## What holds at every loop head -/

/-- The names that a walk from the source can meet; repeats are kept. -/
def names (search : Search) : List String := search.source :: search.graph.names

/-- The invariant of the loop that bounds it. -/
structure Sound (search : Search) (state : State) : Prop where
  exact : state.trail.Exact
  depth_eq : state.frames.length = state.trail.stack.length
  stack_subset : ∀ name ∈ state.trail.stack, name ∈ search.names
  pending_subset : ∀ frame ∈ state.frames, ∀ name ∈ frame, name ∈ search.names

theorem Sound.length_frames_le {search : Search} {state : State} (h : search.Sound state) :
    state.frames.length ≤ search.names.length :=
  h.depth_eq ▸ h.exact.stack_nodup.length_le_of_subset h.stack_subset

theorem nextUnvisited_eq_some {trail : Trail} {pending rest : List String} {name : String}
    (h : nextUnvisited trail pending = some (name, rest)) :
    trail.contains name = false ∧ ∃ skipped, pending = skipped ++ name :: rest := by
  induction pending with
  | nil => simp [nextUnvisited] at h
  | cons head tail ih =>
    simp only [nextUnvisited] at h
    split at h
    · obtain ⟨hname, skipped, rfl⟩ := ih h
      exact ⟨hname, head :: skipped, rfl⟩
    · rename_i hhead
      cases h
      exact ⟨by simpa using hhead, [], rfl⟩

theorem Sound.initial (search : Search) : search.Sound {} :=
  ⟨.empty, rfl, by simp, by simp⟩

/-- Stepping onto a new name keeps the invariant. -/
theorem Sound.stepOnto {search : Search} {state after : State} (h : search.Sound state)
    {name : String} (hnew : state.trail.contains name = false) (hname : name ∈ search.names)
    (hstep : search.stepOnto state name = .next after) : search.Sound after := by
  have hpush := h.exact.push hnew
  unfold Search.stepOnto at hstep
  split at hstep
  · cases hstep
  · split at hstep
    · split at hstep
      · cases hstep
      · cases hstep
        exact ⟨hpush.pop, h.depth_eq, h.stack_subset, h.pending_subset⟩
    · cases hstep
      refine ⟨hpush, by simpa [Trail.push] using h.depth_eq, fun other hother => ?_,
        fun frame hframe => ?_⟩
      · rcases List.mem_cons.mp hother with rfl | hother
        · exact hname
        · exact h.stack_subset other hother
      · rcases List.mem_cons.mp hframe with rfl | hframe
        · exact fun other hother =>
            List.mem_cons_of_mem _ (Graph.mem_names_of_mem_dependencies hother)
        · exact h.pending_subset frame hframe

/-- The invariant holds at the first loop head. -/
theorem sound_of_start {search : Search} {state : State} (h : search.start = .next state) :
    search.Sound state :=
  (Sound.initial search).stepOnto (by rfl) (List.mem_cons_self ..) h

/-- Every turn keeps the invariant. -/
theorem sound_of_advance {search : Search} {state after : State} (h : search.Sound state)
    (hturn : search.advance state = .next after) : search.Sound after := by
  unfold advance at hturn
  split at hturn
  · cases hturn
  · rename_i pending frames hframes
    have hpending := h.pending_subset
    have hdepth := h.depth_eq
    rw [hframes] at hpending hdepth
    split at hturn
    · rename_i name rest hnext
      obtain ⟨hnew, skipped, rfl⟩ := nextUnvisited_eq_some hnext
      have hrest : search.Sound { state with frames := rest :: frames } := by
        refine ⟨h.exact, hdepth, h.stack_subset, fun frame hframe => ?_⟩
        rcases List.mem_cons.mp hframe with rfl | hframe
        · exact fun other hother => hpending _ (List.mem_cons_self ..) other (by simp [hother])
        · exact hpending frame (List.mem_cons_of_mem _ hframe)
      exact hrest.stepOnto hnew (hpending _ (List.mem_cons_self ..) name (by simp)) hturn
    · cases hturn
      refine ⟨h.exact.pop, ?_, fun name hname => ?_,
        fun frame hframe => hpending frame (List.mem_cons_of_mem _ hframe)⟩
      · simp only [List.length_cons] at hdepth
        simp only [Trail.stack_pop, List.length_tail]
        omega
      · exact h.stack_subset name (List.mem_of_mem_tail (Trail.stack_pop _ ▸ hname))

/-! ## The measure -/

/-- The weight of a stack of frames: an entry of a frame outweighs everything that can be stacked on
top of it, when there is room for `room` frames of fewer than `base - 1` entries. -/
def framesWeight (base room : Nat) : List (List String) → Nat
  | [] => 0
  | frame :: frames => (frame.length + 1) * Nat.pow base (room - frames.length) +
      framesWeight base room frames

/-- What every turn lowers. -/
def State.weight (search : Search) (state : State) : Nat :=
  framesWeight (search.graph.maxDegree + 2) search.names.length state.frames

theorem weight_lt_of_stepOnto {search : Search} {state after : State} {name : String}
    {rest : List String} {frames : List (List String)} (hframes : state.frames = rest :: frames)
    (hroom : frames.length < search.names.length)
    (hstep : search.stepOnto state name = .next after) {pending : List String}
    (hlength : rest.length < pending.length) :
    after.weight search <
      framesWeight (search.graph.maxDegree + 2) search.names.length (pending :: frames) := by
  have hpos : 0 < Nat.pow (search.graph.maxDegree + 2) (search.names.length - frames.length) :=
    Nat.pow_pos (by omega)
  have hle := Nat.mul_le_mul_right
    (Nat.pow (search.graph.maxDegree + 2) (search.names.length - frames.length))
    (show rest.length + 2 ≤ pending.length + 1 by omega)
  unfold Search.stepOnto at hstep
  split at hstep
  · cases hstep
  · split at hstep
    · split at hstep
      · cases hstep
      · cases hstep
        simp only [State.weight, hframes, framesWeight]
        simp only [Nat.add_mul] at hle ⊢
        omega
    · cases hstep
      have hdegree := search.graph.length_dependencies_le name
      have hroom' : search.names.length - frames.length
          = (search.names.length - (rest :: frames).length) + 1 := by
        simp only [List.length_cons]
        omega
      have htop : ((search.graph.dependencies name).length + 1) *
          Nat.pow (search.graph.maxDegree + 2) (search.names.length - (rest :: frames).length)
            < Nat.pow (search.graph.maxDegree + 2) (search.names.length - frames.length) := by
        -- A place of room outweighs every entry of a frame by itself.
        have hpow (base place : Nat) : Nat.pow base (place + 1) = base * Nat.pow base place :=
          Nat.mul_comm _ _
        rw [hroom', hpow]
        exact Nat.mul_lt_mul_of_pos_right (by omega) (Nat.pow_pos (by omega))
      simp only [State.weight, hframes, framesWeight]
      simp only [Nat.add_mul] at hle htop ⊢
      omega

/-- Every turn lowers the weight. -/
theorem weight_lt_of_advance {search : Search} {state after : State} (h : search.Sound state)
    (hturn : search.advance state = .next after) :
    after.weight search < state.weight search := by
  have hroom := h.length_frames_le
  unfold advance at hturn
  split at hturn
  · cases hturn
  · rename_i pending frames hframes
    rw [hframes, List.length_cons] at hroom
    have hstate : state.weight search =
        framesWeight (search.graph.maxDegree + 2) search.names.length (pending :: frames) := by
      rw [State.weight, hframes]
    split at hturn
    · rename_i name rest hnext
      obtain ⟨-, skipped, rfl⟩ := nextUnvisited_eq_some hnext
      rw [hstate]
      have hframes' : ({ state with frames := rest :: frames } : State).frames = rest :: frames :=
        rfl
      exact weight_lt_of_stepOnto hframes' (by omega) hturn (by simp; omega)
    · cases hturn
      rw [hstate]
      simp only [State.weight, framesWeight]
      have : 0 < (pending.length + 1) *
          Nat.pow (search.graph.maxDegree + 2) (search.names.length - frames.length) :=
        Nat.mul_pos (by omega) (Nat.pow_pos (by omega))
      omega

/-! ## The loop -/

/-- How a search ended, and why it was stopped, if it was. -/
structure Ending where
  state : State
  abort : Option AbortReason

/-- Take turns until the search ends. -/
def loop (search : Search) (state : State) (h : search.Sound state) : Ending :=
  match hturn : search.advance state with
  | .finished state => ⟨state, none⟩
  | .aborted reason state => ⟨state, some reason⟩
  | .next after => search.loop after (sound_of_advance h hturn)
termination_by state.weight search
decreasing_by exact weight_lt_of_advance h hturn

/-- Step onto the source and take turns until the search ends. -/
def walkFrom (search : Search) : Ending :=
  match hturn : search.start with
  | .finished state => ⟨state, none⟩
  | .aborted reason state => ⟨state, some reason⟩
  | .next state => search.loop state (sound_of_start hturn)

/-- Run the search and take whatever is left off the trail. -/
def walk (search : Search) : Ending :=
  let ending := search.walkFrom
  { ending with state := { ending.state with trail := ending.state.trail.unwind } }

/-- The paths of a search in the order in which they were found, unless it was stopped. -/
def run (search : Search) : Except AbortReason (List Path) :=
  let ending := search.walk
  match ending.abort with
  | some reason => .error reason
  | none => .ok ending.state.found.reverse

end Search

/-- Every simple path from `source` to `target`, in the order of discovery. -/
def Graph.collectPaths (g : Graph) (source target : String) (watch : Watch) :
    Except AbortReason (List Path) :=
  Search.run { graph := g, source, target, firstOnly := false, watch }

/-- The first simple path from `source` to `target`, if there is one. -/
def Graph.findPath (g : Graph) (source target : String) (watch : Watch) :
    Except AbortReason (Option Path) :=
  (Search.run { graph := g, source, target, firstOnly := true, watch }).map List.head?

end BindingGraph
