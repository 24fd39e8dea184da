import BindingGraph.Graph.Table
import BindingGraph.Proofs.Graph.Declarations
import BindingGraph.Proofs.Search.LoopHeads

/-!
# How long and how deep a search goes

A search that is not stopped comes to its end by itself, after a number of turns that the graph
bounds (`Search.exists_afterTurns_eq_finished`). Every trail that it has on its way
(`Search.Passes`) repeats no name and holds names of the graph only
(`Passes.nodup_and_subset`), so none is longer than there are names; over a dependency graph
these are the nodes (`Search.ends_within_names`).
-/

namespace BindingGraph

namespace Graph

variable {g : Graph} {nodes : List String}

/-- A walk that begins with a name of the graph stays within its names. -/
theorem IsWalk.subset_names (h : g.IsWalk nodes) (hfirst : ∀ first ∈ nodes.head?, first ∈ g.names) :
    nodes ⊆ g.names := by
  induction nodes with
  | nil => exact List.nil_subset _
  | cons name rest ih =>
    obtain ⟨hnext, hrest⟩ := isWalk_cons_iff.mp h
    refine List.cons_subset.mpr ⟨hfirst name rfl, ih hrest ?_⟩
    intro next hmem
    exact mem_names_of_mem_dependencies (hnext next hmem)

end Graph

theorem eraseDups_of_nodup {α : Type} [DecidableEq α] {xs : List α} (h : xs.Nodup) :
    xs.eraseDups = xs := by
  rw [← foldl_insertEnd_nil, foldl_insertEnd_of_nodup (by simpa using h), List.nil_append]

/-- Every name of a dependency graph is a node, so its different names are its nodes. -/
theorem DependencyGraph.eraseDups_names (g : DependencyGraph) :
    g.view.names.eraseDups = g.nodes := by
  have hnames : g.view.names = g.nodes ++ g.nodes.flatMap g.dependencies := rfl
  have hremoved : (g.nodes.flatMap g.dependencies).removeAll g.nodes = [] := by
    rw [List.removeAll, List.filter_eq_nil_iff]
    intro name hname
    obtain ⟨node, -, hmem⟩ := List.mem_flatMap.mp hname
    simpa using mem_nodes_of_mem_dependencies hmem
  rw [hnames, List.eraseDups_append, hremoved, eraseDups_of_nodup g.nodes_nodup]
  exact List.append_nil _

namespace Search

variable {search : Search} {trail : Trail} {frames : List (List String)}

/-! ## The number of turns -/

/-- Where the watch says nothing, exploring everything or stopping at the first path ends
a search. -/
theorem exists_afterTurns_eq_finished (hwatch : search.watch.Silent) :
    ∃ turns ≤ (search.graph.maxDegree + 2) ^ (search.names.length + 1), ∃ final,
      search.afterTurns turns = .finished final := by
  obtain ⟨turns, hle, hending⟩ := exists_ending_eq_walkFrom search
  have habort : search.walkFrom.abort = none := (walk_finds hwatch).1
  refine ⟨turns, hle, ?_⟩
  cases hturn : search.afterTurns turns with
  | next state => simp [hturn, Turn.ending?] at hending
  | finished final => exact ⟨final, rfl⟩
  | aborted reason state =>
    rw [hturn] at hending
    rw [← Option.some.inj hending] at habort
    cases habort

/-! ## The depth of the trail -/

/-- The trails that a search has at one moment or another: nothing before the first step, which puts
the source on it, and what a turn leaves behind, also the last one. Amid a turn the new name is on
the trail, the target too. Names are taken off one by one: the target at once, others when nothing
is pending or all is over. -/
inductive Passes (search : Search) : Trail → Prop
  | outset : search.Passes {}
  | source : search.Passes (Trail.push {} search.source)
  | settled (turns : Nat) : search.Passes (search.afterTurns turns).state.trail
  | step {turns : Nat} {state : State} {pending rest : List String} {frames : List (List String)}
      {name : String} : search.afterTurns turns = .next state → state.frames = pending :: frames →
      nextUnvisited state.trail pending = some (name, rest) → search.Passes (state.trail.push name)
  | back {trail : Trail} : search.Passes trail → search.Passes trail.pop.2

/-- A trail that is aligned with its frames repeats no name and holds names of the graph only. -/
theorem Aligned.nodup_and_subset (h : search.Aligned trail frames)
    (hsource : search.source ∈ search.graph.names) :
    trail.stack.Nodup ∧ trail.stack ⊆ search.graph.names := by
  refine ⟨h.exact.stack_nodup, fun name hname => ?_⟩
  refine h.walk.subset_names ?_ (List.mem_reverse.mpr hname)
  intro first hfirst
  exact h.starts first hfirst ▸ hsource

/-- So does every trail on the way, also with the name of a step on it that is not settled yet. -/
theorem Passes.nodup_and_subset (h : search.Passes trail)
    (hsource : search.source ∈ search.graph.names) :
    trail.stack.Nodup ∧ trail.stack ⊆ search.graph.names := by
  induction h with
  | outset => exact ⟨List.nodup_nil, List.nil_subset _⟩
  | source => exact ⟨List.nodup_singleton _, List.cons_subset.mpr ⟨hsource, List.nil_subset _⟩⟩
  | settled turns => exact (aligned_afterTurns search turns).nodup_and_subset hsource
  | @step turns state pending rest frames name hturn hframes hnext =>
    -- Amid a turn trail and frames are not aligned, so both facts come from the loop head before
    -- it.
    have haligned := aligned_afterTurns search turns
    simp only [hturn, Turn.state, hframes] at haligned
    obtain ⟨hnodup, hsubset⟩ := haligned.nodup_and_subset hsource
    obtain ⟨hnew, skipped, rfl⟩ := nextUnvisited_eq_some hnext
    have hstack : name ∉ state.trail.stack := fun hmem => by
      simp [haligned.exact.contains_iff.mpr hmem] at hnew
    obtain ⟨last, stack, hsuffix, -, -⟩ := List.forall₂_cons_left_iff.mp haligned.suffixes
    have hname : name ∈ search.graph.names :=
      Graph.mem_names_of_mem_dependencies (hsuffix.subset (by simp))
    exact ⟨List.nodup_cons.mpr ⟨hstack, hnodup⟩, List.cons_subset.mpr ⟨hname, hsubset⟩⟩
  | @back trail _ ih =>
    rw [Trail.stack_pop]
    exact ⟨ih.1.tail, fun name hname => ih.2 (List.mem_of_mem_tail hname)⟩

/-- **Bounds.** Over any graph with the source among its nodes, whatever its cycles and repeats, a
search that is never told to give up ends of itself, be it for all paths or for the first, after a
number of turns that is known beforehand. Stopped or not, its trail never holds more names than
occur as nodes or dependencies; in a dependency graph these are as many as there are nodes. -/
theorem ends_within_names (search : Search) (hsource : search.source ∈ search.graph.nodes) :
    (search.watch.Silent →
      ∃ turns ≤ (search.graph.maxDegree + 2) ^ (search.graph.names.length + 2), ∃ final,
        search.afterTurns turns = .finished final) ∧
    (∀ trail, search.Passes trail → trail.depth ≤ search.graph.names.eraseDups.length) ∧
    ∀ graph : DependencyGraph, search.graph = graph.view →
      search.graph.names.eraseDups.length = graph.nodeCount := by
  refine ⟨exists_afterTurns_eq_finished, ?_, ?_⟩
  · intro trail htrail
    obtain ⟨hnodup, hsubset⟩ := htrail.nodup_and_subset (List.mem_append_left _ hsource)
    exact hnodup.length_le_of_subset fun name hname => List.mem_eraseDups.mpr (hsubset hname)
  · intro graph hgraph
    rw [hgraph, graph.eraseDups_names]
    rfl

/-- In a table with cycles, a repeated dependency and one that is no key, a search for a key that
nothing else leads to takes all other names onto its trail. -/
theorem ends_within_names_table :
    let table := TableGraph.ofBindings [("a", ["a", "b", "b"]), ("b", ["a", "x"]), ("c", ["c"])]
    let search : Search :=
      { graph := table.view, source := "a", target := "c", firstOnly := false,
        watch := fun _ => none }
    search.source ∈ search.graph.nodes ∧ search.watch.Silent ∧
    (∃ turns final, search.afterTurns turns = .finished final) ∧
    search.Passes ⟨["x", "b", "a"], ["x", "b", "a"]⟩ ∧
    Trail.depth ⟨["x", "b", "a"], ["x", "b", "a"]⟩ ≤ search.graph.names.eraseDups.length ∧
    search.graph.names.eraseDups.length = 4 := by
  intro table search
  have hsource : search.source ∈ search.graph.nodes := by decide +kernel
  obtain ⟨hends, hdepth, -⟩ := ends_within_names search hsource
  obtain ⟨turns, -, final, hfinal⟩ := hends fun _ => rfl
  have hpasses : search.Passes ⟨["x", "b", "a"], ["x", "b", "a"]⟩ := .settled 2
  exact ⟨hsource, fun _ => rfl, ⟨turns, final, hfinal⟩, hpasses, hdepth _ hpasses,
    by decide +kernel⟩

end Search

end BindingGraph
