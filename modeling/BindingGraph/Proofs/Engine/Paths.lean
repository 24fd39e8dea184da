import BindingGraph.Engine
import BindingGraph.Graph.Table
import BindingGraph.Proofs.Graph.Declarations
import BindingGraph.Proofs.Search.SimplePaths
import BindingGraph.Proofs.Search.Unrolled

/-!
# Answers about paths

What an engine answers when it is asked for paths between two nodes and its search is not stopped.
Over a dependency graph the answer holds every simple path exactly once
(`allPaths_lists_simplePaths`). Over any graph it is the list of the recursive enumeration, in its
order (`collectPaths_in_order`). A single path is asked for with the same result as the head of that
list, and there is one exactly when the target is reached by any walk at all (`somePath_eq_head`).
-/

namespace BindingGraph

/-- Three bindings, one of which needs itself, that all need each other. -/
def tangled : DependencyGraph :=
  .ofDeclarations [.dependency "a" "a", .binding "a" ["b", "c"], .binding "b" ["c", "a"],
    .dependency "c" "b"]

/-! ## The enumeration behind the answers -/

namespace Engine

variable {e : Engine} {source target name : String}

theorem resolve_of_mem (h : name ∈ e.graph.nodes) : e.resolve name = .ok name := by
  rw [resolve, if_pos (Graph.contains_iff.mpr h)]

/-- The answer for all paths, where both names are nodes and the search is not stopped. -/
theorem allPaths_eq (hsource : source ∈ e.graph.nodes) (htarget : target ∈ e.graph.nodes)
    (hwatch : e.watch.Silent) :
    e.allPaths source target = .ok ((e.graph.pathsFrom target [] source).map Path.mk) := by
  rw [allPaths, resolve_of_mem hsource, resolve_of_mem htarget]
  show (e.graph.collectPaths source target e.watch).mapError QueryError.aborted = _
  rw [Graph.collectPaths_eq _ _ _ hwatch]
  rfl

/-- The answer for one path, where both names are nodes and the search is not stopped. -/
theorem somePath_eq (hsource : source ∈ e.graph.nodes) (htarget : target ∈ e.graph.nodes)
    (hwatch : e.watch.Silent) :
    e.somePath source target = .ok ((e.graph.pathsFrom target [] source).map Path.mk).head? := by
  rw [somePath, resolve_of_mem hsource, resolve_of_mem htarget]
  show (e.graph.findPath source target e.watch).mapError QueryError.aborted = _
  rw [Graph.findPath_eq _ _ _ hwatch]
  rfl

end Engine

theorem Path.mem_map_mk_iff {path : Path} {paths : List (List String)} :
    path ∈ paths.map Path.mk ↔ path.nodes ∈ paths := by
  constructor
  · intro h
    obtain ⟨nodes, hmem, rfl⟩ := List.mem_map.mp h
    exact hmem
  · intro h
    exact List.mem_map.mpr ⟨path.nodes, h, rfl⟩

/-! ## Every simple path, once -/

namespace Engine

/-- **Soundness, completeness and no repeats.** Over a dependency graph, whatever its cycles,
the paths that are answered are exactly the simple paths from the source to the target, each of
them once. -/
theorem allPaths_lists_simplePaths (graph : DependencyGraph) (e : Engine)
    (hgraph : e.graph = graph.view) (hwatch : e.watch.Silent) (source target : String)
    (hsource : source ∈ graph.nodes) (htarget : target ∈ graph.nodes) :
    ∃ paths, e.allPaths source target = .ok paths ∧ paths.Nodup ∧
      ∀ path, path ∈ paths ↔ e.graph.IsSimplePath source target path.nodes := by
  have hnodes : e.graph.nodes = graph.nodes := by rw [hgraph]; rfl
  refine ⟨_, allPaths_eq (hnodes ▸ hsource) (hnodes ▸ htarget) hwatch, ?_, fun path => ?_⟩
  · refine List.Nodup.map (fun _ _ heq => Path.mk.inj heq) (Graph.nodup_pathsFrom fun name => ?_)
    rw [hgraph]
    exact graph.nodup_dependencies name
  · rw [Path.mem_map_mk_iff, Graph.mem_pathsFrom_nil_iff]

theorem allPaths_lists_simplePaths_tangled :
    "a" ∈ tangled.nodes ∧ "c" ∈ tangled.nodes ∧
      ∃ paths, ({ graph := tangled.view } : Engine).allPaths "a" "c" = .ok paths ∧ paths.Nodup ∧
        ∀ path, path ∈ paths ↔ tangled.view.IsSimplePath "a" "c" path.nodes :=
  ⟨by decide, by decide,
    allPaths_lists_simplePaths tangled { graph := tangled.view } rfl (fun _ => rfl) "a" "c"
      (by decide) (by decide)⟩

end Engine

/-! ## The order of the recursion -/

/-- **Discovery order.** Over any graph an exhaustive search answers with the list of the recursive
enumeration, element by element. Over a dependency graph, where two of its paths part, the one that
is listed first goes on with the dependency that was declared first. -/
theorem collectPaths_in_order (watch : Watch) (hwatch : watch.Silent) (source target : String) :
    (∀ g : Graph, g.collectPaths source target watch =
      .ok ((g.pathsFrom target [] source).map Path.mk)) ∧
    ∀ (graph : DependencyGraph) (paths : List Path),
      graph.view.collectPaths source target watch = .ok paths →
      ∀ (i j : Nat) (hj : j < paths.length) (hij : i < j)
        (front rest rest' : List String) (joint a b : String),
        paths[i].nodes = front ++ joint :: a :: rest →
        paths[j].nodes = front ++ joint :: b :: rest' → a ≠ b →
        (graph.dependencies joint).idxOf a < (graph.dependencies joint).idxOf b := by
  refine ⟨fun g => g.collectPaths_eq source target hwatch, ?_⟩
  intro graph paths hpaths i j hj hij front rest rest' joint a b hi hj' hne
  rw [Graph.collectPaths_eq _ _ _ hwatch] at hpaths
  obtain rfl := Except.ok.inj hpaths
  have hordered : (graph.view.pathsFrom target [] source).Pairwise graph.view.Precedes :=
    Graph.pairwise_precedes_pathsFrom graph.nodup_dependencies
  have hlength : j < (graph.view.pathsFrom target [] source).length := by simpa using hj
  have hprecedes := List.pairwise_iff_getElem.mp hordered i j (by omega) hlength hij
  simp only [List.getElem_map] at hi hj'
  rw [hi, hj'] at hprecedes
  exact hprecedes.idxOf_lt hne

theorem collectPaths_in_order_tangled :
    tangled.view.collectPaths "a" "c" (fun _ => none) = .ok [⟨["a", "b", "c"]⟩, ⟨["a", "c"]⟩] ∧
      (tangled.dependencies "a").idxOf "b" < (tangled.dependencies "a").idxOf "c" := by
  have hpaths : tangled.view.collectPaths "a" "c" (fun _ => none) =
      .ok [⟨["a", "b", "c"]⟩, ⟨["a", "c"]⟩] := by decide +kernel
  exact ⟨hpaths, (collectPaths_in_order (fun _ => none) (fun _ => rfl) "a" "c").2 tangled _ hpaths
    0 1 (by decide) (by decide) [] ["c"] [] "a" "b" "c" rfl rfl (by decide)⟩

/-! ## One path -/

namespace Engine

/-- **One path.** Over any graph, cyclic or not, the single path that is answered is the
first of all paths; there is one exactly when some walk, simple or not, leads from the source
to the target. -/
theorem somePath_eq_head (e : Engine) (hwatch : e.watch.Silent) (source target : String)
    (hsource : source ∈ e.graph.nodes) (htarget : target ∈ e.graph.nodes) :
    ∃ paths, e.allPaths source target = .ok paths ∧
      e.somePath source target = .ok paths.head? ∧
      (paths.head?.isSome ↔ e.graph.Reaches source target) := by
  refine ⟨_, allPaths_eq hsource htarget hwatch, somePath_eq hsource htarget hwatch, ?_⟩
  rw [← Graph.pathsFrom_nil_ne_nil_iff, List.isSome_head?]
  exact not_congr List.map_eq_nil_iff

/-- A table in which a dependency is listed twice and another is no node. -/
theorem somePath_eq_head_table :
    let e : Engine :=
      { graph := (TableGraph.ofBindings
        [("b", ["a", "c"]), ("a", ["x", "b", "b"]), ("c", [])]).view }
    "a" ∈ e.graph.nodes ∧ "c" ∈ e.graph.nodes ∧
      ∃ paths, e.allPaths "a" "c" = .ok paths ∧ e.somePath "a" "c" = .ok paths.head? ∧
        (paths.head?.isSome ↔ e.graph.Reaches "a" "c") := by
  intro e
  have hsource : "a" ∈ e.graph.nodes := by decide +kernel
  have htarget : "c" ∈ e.graph.nodes := by decide +kernel
  exact ⟨hsource, htarget, somePath_eq_head e (fun _ => rfl) "a" "c" hsource htarget⟩

end Engine

end BindingGraph
