import BindingGraph.Search.Enumeration
import BindingGraph.Search.Machine
import Mathlib.Data.List.Basic

/-!
# The loop unrolls the recursion

At every loop head the state of a search stands for a list of paths: those that it has found,
and behind them those that the recursion still lists by way of the names pending in its frames
(`Search.outstanding`). As long as the watch says nothing, a turn leaves this list as it is
(`advance_cases`), so a search that runs to its end has found all of it, and one that stops at
the first path has found its head (`loop_finds`). At the start the list is that of the recursion
from the source, which `collectPaths_eq` and `findPath_eq` state for whole searches. A watch
that says to give up before the first step has its way in every search
(`collectPaths_of_stopped`, `findPath_of_stopped`).
-/

namespace BindingGraph

/-- The watch never says to give up. -/
def Watch.Silent (watch : Watch) : Prop := ∀ check, watch check = none

namespace Search

variable {search : Search} {state : State} {name : String} {stack pending : List String}
  {frames : List (List String)}

/-! ## What a state stands for -/

/-- The paths by way of each pending name that is not on the walk. -/
def branches (search : Search) (stack pending : List String) : List (List String) :=
  pending.flatMap fun next =>
    if next ∈ stack then [] else search.graph.pathsFrom search.target stack.reverse next

/-- The paths by way of the pending names of all frames, the latest frame first. -/
def pendingPaths (search : Search) : List String → List (List String) → List (List String)
  | name :: stack, pending :: frames =>
    search.branches (name :: stack) pending ++ search.pendingPaths stack frames
  | _, _ => []

/-- The paths that a state stands for: those found, and those that are still to be found. -/
def outstanding (search : Search) (state : State) : List (List String) :=
  state.found.reverse.map Path.nodes ++ search.pendingPaths state.trail.stack state.frames

theorem branches_skip (h : name ∈ stack) :
    search.branches stack (name :: pending) = search.branches stack pending := by
  simp [branches, h]

theorem branches_cons (h : name ∉ stack) :
    search.branches stack (name :: pending) =
      search.graph.pathsFrom search.target stack.reverse name ++
        search.branches stack pending := by
  simp [branches, h]

/-- The recursion goes on from a name that is not the target by way of its dependencies. -/
theorem pathsFrom_eq_branches (h : name ≠ search.target) :
    search.graph.pathsFrom search.target stack.reverse name =
      search.branches (name :: stack) (search.graph.dependencies name) := by
  rw [Graph.pathsFrom_eq, if_neg h, branches, List.reverse_cons]
  refine List.flatMap_congr fun next _ => ?_
  have hmem : next ∈ stack.reverse ++ [name] ↔ next ∈ name :: stack := by
    rw [← List.reverse_cons, List.mem_reverse]
  rw [if_congr hmem rfl rfl]

/-- Names that are on the trail already stand for no path, so passing over them changes nothing. -/
theorem branches_of_nextUnvisited {trail : Trail} (h : trail.Exact) :
    search.branches trail.stack pending =
      match nextUnvisited trail pending with
      | none => []
      | some (name, rest) =>
        search.graph.pathsFrom search.target trail.stack.reverse name ++
          search.branches trail.stack rest := by
  induction pending with
  | nil => rfl
  | cons name pending ih =>
    rw [nextUnvisited]
    by_cases hmem : name ∈ trail.stack
    · rw [if_pos (h.contains_iff.mpr hmem), branches_skip hmem, ih]
    · rw [if_neg (fun hc => hmem (h.contains_iff.mp hc)), branches_cons hmem]

/-! ## One step -/

/-- A step onto a name that is not the target. -/
theorem stepOnto_of_ne (hwatch : search.watch.Silent) (hname : name ≠ search.target) :
    search.stepOnto state name =
      .next ⟨state.trail.push name, search.graph.dependencies name :: state.frames,
        state.checks + 1, state.found⟩ := by
  rw [stepOnto, hwatch]
  exact if_neg hname

/-- A step onto the target: it is reported and left at once. -/
theorem stepOnto_target (hwatch : search.watch.Silent) :
    search.stepOnto state search.target =
      (if search.firstOnly then Turn.finished else Turn.next)
        ⟨(state.trail.push search.target).pop.2, state.frames, state.checks + 1,
          ⟨(state.trail.push search.target).current⟩ :: state.found⟩ := by
  rw [stepOnto, hwatch]
  cases hfirst : search.firstOnly <;> simp

/-- Stepping onto a name, where the watch says nothing: the paths through the name become
outstanding, or the target is reported and the search is over. -/
theorem stepOnto_cases (hwatch : search.watch.Silent) (state : State) (name : String) :
    (∃ after, search.stepOnto state name = .next after ∧
      search.outstanding after = state.found.reverse.map Path.nodes ++
        (search.graph.pathsFrom search.target state.trail.stack.reverse name ++
          search.pendingPaths state.trail.stack state.frames) ∧
      (search.firstOnly = true → after.found = state.found)) ∨
    (search.firstOnly = true ∧ ∃ final path, search.stepOnto state name = .finished final ∧
      final.found = path :: state.found ∧
      search.graph.pathsFrom search.target state.trail.stack.reverse name = [path.nodes]) := by
  by_cases hname : name = search.target
  · subst hname
    have hpaths : search.graph.pathsFrom search.target state.trail.stack.reverse search.target =
        [(state.trail.push search.target).current] := by
      rw [Graph.pathsFrom_eq, if_pos rfl, Trail.current, Trail.push, List.reverse_cons]
    rw [stepOnto_target hwatch]
    cases hfirst : search.firstOnly with
    | false =>
      refine .inl ⟨_, rfl, ?_, by simp⟩
      rw [hpaths]
      simp [outstanding, Trail.pop, Trail.push]
    | true => exact .inr ⟨rfl, _, ⟨_⟩, rfl, rfl, hpaths⟩
  · refine .inl ⟨_, stepOnto_of_ne hwatch hname, ?_, fun _ => rfl⟩
    rw [pathsFrom_eq_branches hname]
    rfl

/-- A turn with nothing left in the latest frame. -/
theorem advance_of_none (hframes : state.frames = pending :: frames)
    (hnext : nextUnvisited state.trail pending = none) :
    search.advance state = .next { state with frames := frames, trail := state.trail.pop.2 } := by
  simp only [advance, hframes, hnext]

/-- A turn with a new name in the latest frame. -/
theorem advance_of_some {rest : List String} (hframes : state.frames = pending :: frames)
    (hnext : nextUnvisited state.trail pending = some (name, rest)) :
    search.advance state = search.stepOnto { state with frames := rest :: frames } name := by
  simp only [advance, hframes, hnext]

/-- One turn, where the watch says nothing: nothing is pending any more; or the search goes on and
stands for the same paths as before; or it stops at the first of them. -/
theorem advance_cases (hwatch : search.watch.Silent) (h : search.Sound state) :
    (state.frames = [] ∧ search.advance state = .finished state) ∨
    (∃ after, search.advance state = .next after ∧
      search.outstanding after = search.outstanding state ∧
      (search.firstOnly = true → after.found = state.found)) ∨
    (search.firstOnly = true ∧ ∃ final path rest, search.advance state = .finished final ∧
      final.found = path :: state.found ∧
      search.outstanding state = state.found.reverse.map Path.nodes ++ path.nodes :: rest) := by
  cases hframes : state.frames with
  | nil => exact .inl ⟨rfl, by rw [advance, hframes]⟩
  | cons pending frames =>
    right
    -- The latest frame belongs to the latest name on the trail.
    obtain ⟨top, stack, hstack⟩ : ∃ top stack, state.trail.stack = top :: stack := by
      have hdepth := h.depth_eq
      rw [hframes] at hdepth
      exact List.exists_cons_of_length_eq_add_one hdepth.symm
    have hout : search.outstanding state = state.found.reverse.map Path.nodes ++
        (search.branches state.trail.stack pending ++ search.pendingPaths stack frames) := by
      rw [outstanding, hframes, hstack, pendingPaths]
    cases hnext : nextUnvisited state.trail pending with
    | none =>
      refine .inl ⟨_, advance_of_none hframes hnext, ?_, fun _ => rfl⟩
      have hbranches : search.branches state.trail.stack pending = [] := by
        rw [branches_of_nextUnvisited h.exact, hnext]
      rw [hout, hbranches]
      simp [outstanding, Trail.pop, hstack]
    | some found =>
      obtain ⟨name, rest⟩ := found
      have hbranches : search.branches state.trail.stack pending =
          search.graph.pathsFrom search.target state.trail.stack.reverse name ++
            search.branches state.trail.stack rest := by
        rw [branches_of_nextUnvisited h.exact, hnext]
      have hpending : search.pendingPaths state.trail.stack (rest :: frames) =
          search.branches state.trail.stack rest ++ search.pendingPaths stack frames := by
        rw [hstack, pendingPaths]
      rw [advance_of_some hframes hnext]
      rcases stepOnto_cases hwatch { state with frames := rest :: frames } name with
        ⟨after, hstep, hafter, hfound⟩ | ⟨hfirst, final, path, hstep, hfinal, hpaths⟩
      · refine .inl ⟨after, hstep, ?_, hfound⟩
        rw [hafter, hout, hbranches, hpending, List.append_assoc]
      · refine .inr ⟨hfirst, final, path,
          search.branches state.trail.stack rest ++ search.pendingPaths stack frames,
          hstep, hfinal, ?_⟩
        simp only at hpaths
        rw [hout, hbranches, hpaths, List.append_assoc, List.singleton_append]

/-! ## Whole searches -/

/-- What a search that is not stopped has found of the paths that it stood for: all, or
the first. -/
def Finds (search : Search) (paths : List (List String)) (ending : Ending) : Prop :=
  ending.abort = none ∧
    ending.state.found.reverse.map Path.nodes =
      if search.firstOnly then paths.take 1 else paths

/-- How a search has ended, if it has. -/
def Turn.ending? : Turn → Option Ending
  | .next _ => none
  | .finished state => some ⟨state, none⟩
  | .aborted reason state => some ⟨state, some reason⟩

theorem loop_of_ending (h : search.Sound state) {ending : Ending}
    (hturn : (search.advance state).ending? = some ending) : search.loop state h = ending := by
  rw [loop]
  split
  all_goals
    rename_i heq
    rw [heq] at hturn
    cases hturn
  · rfl
  · rfl

theorem loop_of_next (h : search.Sound state) {after : State}
    (hturn : search.advance state = .next after) :
    search.loop state h = search.loop after (sound_of_advance h hturn) := by
  rw [loop]
  split
  all_goals
    rename_i heq
    rw [hturn] at heq
    cases heq
  rfl

theorem walkFrom_of_ending {ending : Ending} (hstart : search.start.ending? = some ending) :
    search.walkFrom = ending := by
  rw [walkFrom]
  split
  all_goals
    rename_i heq
    rw [heq] at hstart
    cases hstart
  · rfl
  · rfl

theorem walkFrom_of_next {after : State} (hstart : search.start = .next after) :
    search.walkFrom = search.loop after (sound_of_start hstart) := by
  rw [walkFrom]
  split
  all_goals
    rename_i heq
    rw [hstart] at heq
    cases heq
  rfl

/-- The watch is asked before the step onto the source: no path is too short to be refused. -/
theorem run_of_stopped {reason : AbortReason} (hwatch : search.watch 0 = some reason) :
    search.run = .error reason := by
  have hstart : search.start = .aborted reason { checks := 1 } := by
    simp only [start, stepOnto, hwatch]
  have hwalk : search.walkFrom = ⟨{ checks := 1 }, some reason⟩ :=
    walkFrom_of_ending (congrArg Turn.ending? hstart)
  rw [run, walk, hwalk]

/-- The last turn: nothing was pending, or the first path was enough. -/
theorem finds_of_finished (hwatch : search.watch.Silent) (h : search.Sound state) {final : State}
    (hfound : search.firstOnly = true → state.found = [])
    (hturn : search.advance state = .finished final) :
    search.Finds (search.outstanding state) ⟨final, none⟩ := by
  refine ⟨rfl, ?_⟩
  rcases advance_cases hwatch h with
    ⟨hframes, hadv⟩ | ⟨after, hadv, -, -⟩ | ⟨hfirst, final', path, rest, hadv, hfinal, hout⟩
  · rw [hadv] at hturn
    obtain rfl := Turn.finished.inj hturn
    have hout : search.outstanding state = state.found.reverse.map Path.nodes := by
      rw [outstanding, hframes]
      cases state.trail.stack <;> simp [pendingPaths]
    cases hfirst : search.firstOnly with
    | false => exact hout.symm
    | true => simp [hout, hfound hfirst]
  · rw [hadv] at hturn
    cases hturn
  · rw [hadv] at hturn
    obtain rfl := Turn.finished.inj hturn
    rw [hout, hfinal, hfound hfirst, if_pos hfirst]
    rfl

/-- The loop finds what the state at its head stands for. -/
theorem loop_finds (hwatch : search.watch.Silent) (h : search.Sound state)
    (hfound : search.firstOnly = true → state.found = []) :
    search.Finds (search.outstanding state) (search.loop state h) := by
  induction state, h using loop.induct search with
  | case1 state h final hturn =>
    rw [loop_of_ending h (congrArg Turn.ending? hturn)]
    exact finds_of_finished hwatch h hfound hturn
  | case2 state h reason final hturn =>
    rcases advance_cases hwatch h with
      ⟨-, hadv⟩ | ⟨after, hadv, -, -⟩ | ⟨-, final', path, rest, hadv, -, -⟩
    all_goals
      rw [hadv] at hturn
      cases hturn
  | case3 state h after hturn ih =>
    rcases advance_cases hwatch h with
      ⟨-, hadv⟩ | ⟨after', hadv, hout, hkept⟩ | ⟨-, final', path, rest, hadv, -, -⟩
    · rw [hadv] at hturn
      cases hturn
    · have heq : after' = after := Turn.next.inj (hadv.symm.trans hturn)
      subst heq
      rw [loop_of_next h hadv, ← hout]
      exact ih fun hfirst => (hkept hfirst).trans (hfound hfirst)
    · rw [hadv] at hturn
      cases hturn

/-- A whole search finds what the recursion lists from the source. -/
theorem walk_finds (hwatch : search.watch.Silent) :
    search.Finds (search.graph.pathsFrom search.target [] search.source) search.walk := by
  suffices h : search.Finds (search.graph.pathsFrom search.target [] search.source)
      search.walkFrom from h
  rcases stepOnto_cases hwatch {} search.source with
    ⟨after, hstep, hout, hkept⟩ | ⟨hfirst, final, path, hstep, hfinal, hpaths⟩
  · have hout : search.outstanding after =
        search.graph.pathsFrom search.target [] search.source := by
      simpa [pendingPaths] using hout
    rw [walkFrom_of_next hstep, ← hout]
    exact loop_finds hwatch _ hkept
  · have hpaths : search.graph.pathsFrom search.target [] search.source = [path.nodes] := hpaths
    rw [walkFrom_of_ending (congrArg Turn.ending? hstep), hpaths]
    refine ⟨rfl, ?_⟩
    rw [hfinal, if_pos hfirst]
    rfl

/-- The answer of a search that is not stopped. -/
theorem run_eq (search : Search) (hwatch : search.watch.Silent) :
    search.run = .ok ((if search.firstOnly
      then (search.graph.pathsFrom search.target [] search.source).take 1
      else search.graph.pathsFrom search.target [] search.source).map Path.mk) := by
  obtain ⟨habort, hfound⟩ := walk_finds hwatch
  have hmk : Path.mk ∘ Path.nodes = id := rfl
  rw [run, habort, ← hfound, List.map_map, hmk, List.map_id]

end Search

namespace Graph

variable {watch : Watch}

/-- An exhaustive search answers with what the recursion lists. -/
theorem collectPaths_eq (g : Graph) (source target : String) (hwatch : watch.Silent) :
    g.collectPaths source target watch =
      .ok ((g.pathsFrom target [] source).map Path.mk) :=
  Search.run_eq ⟨g, source, target, false, watch⟩ hwatch

/-- A search for one path answers with the first that the recursion lists. -/
theorem findPath_eq (g : Graph) (source target : String) (hwatch : watch.Silent) :
    g.findPath source target watch =
      .ok ((g.pathsFrom target [] source).map Path.mk).head? := by
  rw [findPath, Search.run_eq ⟨g, source, target, true, watch⟩ hwatch]
  show Except.ok _ = Except.ok _
  rw [if_pos rfl, List.map_take, List.head?_take, if_neg Nat.one_ne_zero]

theorem collectPaths_of_stopped (g : Graph) (source target : String) {reason : AbortReason}
    (hwatch : watch 0 = some reason) : g.collectPaths source target watch = .error reason :=
  @Search.run_of_stopped ⟨g, source, target, false, watch⟩ reason hwatch

theorem findPath_of_stopped (g : Graph) (source target : String) {reason : AbortReason}
    (hwatch : watch 0 = some reason) : g.findPath source target watch = .error reason := by
  rw [findPath, @Search.run_of_stopped ⟨g, source, target, true, watch⟩ reason hwatch]
  rfl

end Graph

end BindingGraph
