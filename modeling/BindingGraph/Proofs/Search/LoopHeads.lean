import BindingGraph.Graph.Dependency
import BindingGraph.Proofs.Search.SimplePaths
import BindingGraph.Proofs.Search.Unrolled
import Mathlib.Algebra.Ring.Nat
import Mathlib.Data.List.Forall2
import Mathlib.Logic.Function.Iterate

/-!
# Trail and frames at the loop heads

A search is followed turn by turn (`Search.afterTurns`) to the ending that its loop computes
(`Search.exists_ending_eq_walkFrom`). Trail and frames are pushed and popped in different places,
but they stay aligned (`Search.Aligned`): there is a frame for each name on the trail, with what is
left of the dependencies of that name, and the trail is a simple walk from the source that keeps
off the target. A step keeps this whether it is taken, refused or reports a path
(`Aligned.stepOnto`), so every turn does (`Aligned.advance`), and the state that a search ends in
is aligned as well. From there the trail is taken down to nothing, and with it the set of the names
held to be on it (`Search.aligned_until_cleared`).
-/

namespace BindingGraph

/-! ## Taking names off a trail -/

namespace Trail

variable {t : Trail}

/-- Unwinding is stepping back once for each name on the trail. -/
theorem unwind_eq_iterate (t : Trail) : t.unwind = (fun trail => trail.pop.2)^[t.depth] t := by
  obtain ⟨stack, visited⟩ := t
  induction stack generalizing visited with
  | nil => rfl
  | cons name stack ih => exact ih (visited.filter (· ≠ name))

theorem Exact.unwind (h : t.Exact) : t.unwind.Exact := by
  rw [unwind_eq_iterate]
  generalize t.depth = steps
  induction steps with
  | zero => exact h
  | succ steps ih =>
    rw [Function.iterate_succ_apply']
    exact ih.pop

/-- An exact trail that is unwound leaves no name behind in its set. -/
theorem Exact.visited_unwind (h : t.Exact) : t.unwind.visited = [] := by
  apply List.eq_nil_iff_forall_not_mem.mpr
  intro name hname
  have hstack : name ∈ t.unwind.stack := (h.unwind.mem_visited_iff name).mp hname
  cases hstack

end Trail

/-! ## Walks from their last name -/

namespace Graph

variable {g : Graph} {name : String} {nodes : List String}

/-- A walk goes on from its last name, which comes first when it is turned around. -/
theorem isWalk_reverse_cons_iff :
    g.IsWalk (name :: nodes).reverse ↔
      (∀ last ∈ nodes.head?, name ∈ g.dependencies last) ∧ g.IsWalk nodes.reverse := by
  rw [isWalk_iff_isChain, isWalk_iff_isChain, List.isChain_reverse, List.isChain_reverse,
    List.isChain_cons]

end Graph

namespace Search

/-! ## The turns of a search -/

/-- The state that a turn leads to, whether or not the search goes on from it. -/
def Turn.state : Turn → State
  | .next state | .finished state | .aborted _ state => state

/-- Take one more turn; a search that is over stays as it is. -/
def proceed (search : Search) : Turn → Turn
  | .next state => search.advance state
  | ended => ended

/-- What a search has come to after the step onto the source and a number of turns. -/
def afterTurns (search : Search) (turns : Nat) : Turn := search.proceed^[turns] search.start

variable {search : Search} {state : State} {trail : Trail} {name : String}
  {pending rest : List String} {frames : List (List String)} {ending : Ending}

theorem Turn.state_of_ending {turn : Turn} (h : turn.ending? = some ending) :
    turn.state = ending.state := by
  cases turn with
  | next state => cases h
  | finished state => exact congrArg Ending.state (Option.some.inj h)
  | aborted reason state => exact congrArg Ending.state (Option.some.inj h)

/-- The loop computes the ending that the turns lead to. All turns but the last lower the weight, so
there are not many more than the weight counts. -/
theorem exists_ending_eq_loop (h : search.Sound state) :
    ∃ turns ≤ state.weight search + 1,
      (search.proceed^[turns] (.next state)).ending? = some (search.loop state h) := by
  induction state, h using loop.induct search with
  | case1 state h final hturn =>
    have hending := congrArg Turn.ending? hturn
    exact ⟨1, by omega, hending.trans (congrArg some (loop_of_ending h hending).symm)⟩
  | case2 state h reason final hturn =>
    have hending := congrArg Turn.ending? hturn
    exact ⟨1, by omega, hending.trans (congrArg some (loop_of_ending h hending).symm)⟩
  | case3 state h after hturn ih =>
    obtain ⟨turns, hle, hending⟩ := ih
    have hlower := weight_lt_of_advance h hturn
    refine ⟨turns + 1, by omega, ?_⟩
    rw [loop_of_next h hturn, ← hending, Function.iterate_succ_apply, proceed, hturn]

/-- At the first loop head there is at most one frame, that of the source. -/
theorem weight_lt_of_start (hstart : search.start = .next state) :
    state.weight search < (search.graph.maxDegree + 2) ^ (search.names.length + 1) := by
  have hpower : 0 < (search.graph.maxDegree + 2) ^ search.names.length := Nat.pow_pos (by omega)
  have hdegree := search.graph.length_dependencies_le search.source
  unfold start stepOnto at hstart
  split at hstart
  · cases hstart
  · split at hstart
    · split at hstart
      · cases hstart
      · cases hstart
        exact Nat.pow_pos (by omega)
    · cases hstart
      show ((search.graph.dependencies search.source).length + 1) *
        (search.graph.maxDegree + 2) ^ search.names.length + 0 < _
      rw [Nat.pow_succ, Nat.add_zero, Nat.mul_comm]
      exact Nat.mul_lt_mul_of_pos_left (by omega) hpower

/-- A whole search computes the ending that its turns lead to. -/
theorem exists_ending_eq_walkFrom (search : Search) :
    ∃ turns ≤ (search.graph.maxDegree + 2) ^ (search.names.length + 1),
      (search.afterTurns turns).ending? = some search.walkFrom := by
  cases hstart : search.start with
  | next state =>
    obtain ⟨turns, hle, hending⟩ := exists_ending_eq_loop (sound_of_start hstart)
    have hweight := weight_lt_of_start hstart
    refine ⟨turns, by omega, ?_⟩
    rw [walkFrom_of_next hstart, afterTurns, hstart, hending]
  | finished state =>
    have hending := congrArg Turn.ending? hstart
    exact ⟨0, Nat.zero_le _, hending.trans (congrArg some (walkFrom_of_ending hending).symm)⟩
  | aborted reason state =>
    have hending := congrArg Turn.ending? hstart
    exact ⟨0, Nat.zero_le _, hending.trans (congrArg some (walkFrom_of_ending hending).symm)⟩

/-! ## What is aligned -/

/-- There is a frame for each name on the trail, with what is left of its dependencies; the trail
is a simple walk from the source that keeps off the target, and its set knows exactly the names
on it. -/
structure Aligned (search : Search) (trail : Trail) (frames : List (List String)) : Prop where
  exact : trail.Exact
  starts : ∀ first ∈ trail.current.head?, first = search.source
  walk : search.graph.IsWalk trail.current
  target_not_mem : search.target ∉ trail.stack
  suffixes :
    List.Forall₂ (fun frame name => frame <:+ search.graph.dependencies name) frames trail.stack

/-- What a trail goes on with: the source to begin with, then a dependency of the latest name. -/
def Follows (search : Search) (trail : Trail) (name : String) : Prop :=
  match trail.peek? with
  | none => name = search.source
  | some last => name ∈ search.graph.dependencies last

theorem Aligned.empty (search : Search) : search.Aligned {} [] where
  exact := .empty
  starts := by simp [Trail.current]
  walk := trivial
  target_not_mem := by simp
  suffixes := .nil

/-- A name is put on the trail together with its frame. -/
theorem Aligned.push (h : search.Aligned trail frames) (hnew : trail.contains name = false)
    (hfollows : search.Follows trail name) (hname : name ≠ search.target) :
    search.Aligned (trail.push name) (search.graph.dependencies name :: frames) where
  exact := h.exact.push hnew
  starts := by
    have hstarts := h.starts
    obtain ⟨stack, visited⟩ := trail
    -- The first name lies at the bottom of the stack, so a push changes it on the empty trail only.
    cases stack with
    | nil =>
      have hsource : name = search.source := hfollows
      simp [Trail.current, Trail.push, hsource]
    | cons last stack =>
      simp only [Trail.current, Trail.push, List.head?_reverse, List.getLast?_cons_cons]
        at hstarts ⊢
      exact hstarts
  walk := by
    refine Graph.isWalk_reverse_cons_iff.mpr ⟨?_, h.walk⟩
    intro last hlast
    have hpeek : trail.peek? = some last := hlast
    rw [Follows, hpeek] at hfollows
    exact hfollows
  target_not_mem := by
    intro hmem
    rcases List.mem_cons.mp hmem with heq | hmem
    · exact hname heq.symm
    · exact h.target_not_mem hmem
  suffixes := .cons List.suffix_rfl h.suffixes

/-- The target is put on the trail without a frame, and taken off again at once. -/
theorem Aligned.push_pop (h : search.Aligned trail frames) (hnew : trail.contains name = false) :
    search.Aligned (trail.push name).pop.2 frames where
  exact := (h.exact.push hnew).pop
  starts := h.starts
  walk := h.walk
  target_not_mem := h.target_not_mem
  suffixes := h.suffixes

/-- A name is taken off the trail together with its frame. -/
theorem Aligned.pop (h : search.Aligned trail (pending :: frames)) :
    search.Aligned trail.pop.2 frames := by
  obtain ⟨last, stack, -, hsuffixes, hstack⟩ := List.forall₂_cons_left_iff.mp h.suffixes
  have hpop : trail.pop.2.stack = stack := by rw [Trail.stack_pop, hstack, List.tail_cons]
  have hwalk := h.walk
  have hstarts := h.starts
  rw [Trail.current, hstack] at hwalk hstarts
  refine ⟨h.exact.pop, ?_, ?_, ?_, hpop ▸ hsuffixes⟩
  · intro first hfirst
    rw [Trail.current, hpop] at hfirst
    apply hstarts
    rw [List.reverse_cons, List.head?_append, hfirst]
    rfl
  · rw [Trail.current, hpop]
    exact (Graph.isWalk_reverse_cons_iff.mp hwalk).2
  · rw [hpop]
    intro hmem
    exact h.target_not_mem (hstack ▸ List.mem_cons_of_mem _ hmem)

/-- Passing over pending names leaves a suffix. -/
theorem Aligned.skip (h : search.Aligned trail (pending :: frames)) (hrest : rest <:+ pending) :
    search.Aligned trail (rest :: frames) := by
  obtain ⟨last, stack, hsuffix, hsuffixes, hstack⟩ := List.forall₂_cons_left_iff.mp h.suffixes
  refine ⟨h.exact, h.starts, h.walk, h.target_not_mem, ?_⟩
  rw [hstack]
  exact .cons (hrest.trans hsuffix) hsuffixes

/-- A pending name follows the latest name on the trail. -/
theorem Aligned.follows (h : search.Aligned trail (pending :: frames)) (hname : name ∈ pending) :
    search.Follows trail name := by
  obtain ⟨last, stack, hsuffix, -, hstack⟩ := List.forall₂_cons_left_iff.mp h.suffixes
  have hpeek : trail.peek? = some last := by rw [Trail.peek?, hstack, List.head?_cons]
  rw [Follows, hpeek]
  exact hsuffix.subset hname

/-! ## Steps, turns and whole searches -/

/-- A step keeps trail and frames aligned, whether it is refused, reports a path or goes on. -/
theorem Aligned.stepOnto (h : search.Aligned state.trail state.frames)
    (hnew : state.trail.contains name = false) (hfollows : search.Follows state.trail name) :
    let after := (search.stepOnto state name).state
    search.Aligned after.trail after.frames := by
  unfold Search.stepOnto
  split
  · exact h
  · by_cases hname : name = search.target
    · rw [if_pos hname]
      split
      · exact h.push_pop hnew
      · exact h.push_pop hnew
    · rw [if_neg hname]
      exact h.push hnew hfollows hname

theorem Aligned.advance (h : search.Aligned state.trail state.frames) :
    let after := (search.advance state).state
    search.Aligned after.trail after.frames := by
  unfold Search.advance
  split
  · exact h
  · rename_i pending frames hframes
    rw [hframes] at h
    split
    · rename_i name rest hnext
      obtain ⟨hnew, skipped, rfl⟩ := nextUnvisited_eq_some hnext
      have hrest : search.Aligned state.trail (rest :: frames) :=
        h.skip ((List.suffix_cons name rest).trans (List.suffix_append skipped _))
      exact @Aligned.stepOnto search { state with frames := rest :: frames } name hrest hnew
        (h.follows (by simp))
    · exact h.pop

theorem Aligned.proceed {turn : Turn} (h : search.Aligned turn.state.trail turn.state.frames) :
    let after := (search.proceed turn).state
    search.Aligned after.trail after.frames := by
  cases turn with
  | next state => exact h.advance
  | finished state => exact h
  | aborted reason state => exact h

theorem aligned_afterTurns (search : Search) (turns : Nat) :
    let state := (search.afterTurns turns).state
    search.Aligned state.trail state.frames := by
  induction turns with
  | zero => exact @Aligned.stepOnto search {} search.source (.empty search) rfl rfl
  | succ turns ih =>
    rw [afterTurns, Function.iterate_succ_apply']
    exact ih.proceed

/-- **Alignment.** However a search goes, at every head of its loop there are as many frames as
names on the trail, each what is left of the dependencies of the name at its level, and the trail is
a simple walk from the source that keeps off the target, with a set that knows exactly the names on
it. These loop heads lead to the ending of the search, be it exhausted, content with the first path
or stopped at some check; the names that are left on the trail there are taken off one by one, and
then both trail and set are empty. -/
theorem aligned_until_cleared (search : Search) :
    (∀ turns state, search.afterTurns turns = .next state →
      state.frames.length = state.trail.depth ∧ search.Aligned state.trail state.frames) ∧
    (∃ turns, (search.afterTurns turns).ending? = some search.walkFrom) ∧
    let left := search.walkFrom.state.trail
    let cleared := search.walk.state.trail
    cleared = (fun trail => trail.pop.2)^[left.depth] left ∧ cleared.stack = [] ∧
    cleared.visited = [] := by
  obtain ⟨turns, -, hending⟩ := exists_ending_eq_walkFrom search
  have hexact : search.walkFrom.state.trail.Exact := by
    rw [← Turn.state_of_ending hending]
    exact (aligned_afterTurns search turns).exact
  refine ⟨?_, ⟨turns, hending⟩, Trail.unwind_eq_iterate _, rfl, hexact.visited_unwind⟩
  intro turns state hturn
  have haligned := aligned_afterTurns search turns
  rw [hturn] at haligned
  exact ⟨haligned.suffixes.length_eq, haligned⟩

/-- Three bindings that need each other, and a search that is stopped at its third step: two names
are still on its trail. -/
theorem aligned_until_cleared_stopped :
    let graph := DependencyGraph.ofBindings
      [("a", ["a", "b", "c"]), ("b", ["c", "a"]), ("c", ["b"])]
    let watch : Watch := fun check => if check = 2 then some .cancelled else none
    let search : Search :=
      { graph := graph.view, source := "a", target := "c", firstOnly := true, watch }
    (∃ state, search.afterTurns 1 = .next state ∧ state.trail.stack = ["b", "a"] ∧
      state.frames = [["c", "a"], ["c"]] ∧ search.Aligned state.trail state.frames) ∧
    search.walk.abort = some .cancelled ∧ search.walkFrom.state.trail.visited = ["b", "a"] ∧
    search.walk.state.trail.visited = [] := by
  intro graph watch search
  obtain ⟨hheads, -, -, -, hcleared⟩ := aligned_until_cleared search
  refine ⟨⟨_, rfl, ?_, ?_, (hheads 1 _ rfl).2⟩, ?_, ?_, hcleared⟩
  · decide +kernel
  · decide +kernel
  · decide +kernel
  · decide +kernel

end Search

end BindingGraph
