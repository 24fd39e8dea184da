import BindingGraph.Proofs.Engine.Paths
import BindingGraph.Proofs.Graph.Table
import BindingGraph.Proofs.Search.RepeatedEdges

/-!
# One table, two graphs

A table can be asked as it stands, or declared row by row and asked as a dependency graph. The
two differ in what they take for a node, in repeated edges and in the order of dependents.
Between keys they give the same answers all the same, up to repeats and, for dependents, up to
order (`TableGraph.answers_of_declared`).
-/

namespace BindingGraph.TableGraph

/-- The enumeration over the declared graph is that over the table without later repeats. -/
theorem pathsFrom_ofBindings_rows (t : TableGraph) (target : String) (visited : List String)
    (name : String) :
    (DependencyGraph.ofBindings t.rows).view.pathsFrom target visited name =
      (t.view.pathsFrom target visited name).eraseDups :=
  Graph.pathsFrom_eraseDups t.dependencies_ofBindings_rows target visited name

/-- **A table and its declared graph agree.** Where no search is stopped, a key has the same
dependencies over both, without repeats over the declared graph, and the same dependents in some
order; all paths between two keys are the same in the same order, without repeats over the declared
graph; and the single path is the same over both. -/
theorem answers_of_declared (t : TableGraph) (e e' : Engine) (he : e.graph = t.view)
    (he' : e'.graph = (DependencyGraph.ofBindings t.rows).view) (hwatch : e.watch.Silent)
    (hwatch' : e'.watch.Silent) (source target : String) (hsource : source ∈ t.keys)
    (htarget : target ∈ t.keys) :
    e'.graph.dependencies source = (e.graph.dependencies source).eraseDups ∧
      (e'.graph.dependents source).Perm (e.graph.dependents source) ∧
      (∃ paths, e.allPaths source target = .ok paths ∧
        e'.allPaths source target = .ok paths.eraseDups) ∧
      ∃ path, e.somePath source target = .ok path ∧ e'.somePath source target = .ok path := by
  have hkeys : ∀ name ∈ t.keys, name ∈ e.graph.nodes := by
    intro name hname
    rw [he]
    exact hname
  have hnodes : ∀ name ∈ t.keys, name ∈ e'.graph.nodes := by
    intro name hname
    rw [he']
    exact DependencyGraph.mem_nodes_ofBindings hname
  have hpaths : (e'.graph.pathsFrom target [] source).map Path.mk =
      ((e.graph.pathsFrom target [] source).map Path.mk).eraseDups := by
    rw [he, he', pathsFrom_ofBindings_rows, eraseDups_map fun _ _ heq => Path.mk.inj heq]
  refine ⟨?_, ?_, ⟨_, Engine.allPaths_eq (hkeys _ hsource) (hkeys _ htarget) hwatch, ?_⟩,
    _, Engine.somePath_eq (hkeys _ hsource) (hkeys _ htarget) hwatch, ?_⟩
  · rw [he, he']
    exact t.dependencies_ofBindings_rows source
  · rw [he, he']
    exact t.perm_dependents_rows source
  · rw [Engine.allPaths_eq (hnodes _ hsource) (hnodes _ htarget) hwatch', hpaths]
  · rw [Engine.somePath_eq (hnodes _ hsource) (hnodes _ htarget) hwatch', hpaths, head?_eraseDups]

/-- A table with repeated dependencies, a cycle and a dependency that is no key. -/
theorem answers_of_declared_repeats :
    let t := TableGraph.ofBindings [("b", ["c", "a", "c"]), ("a", ["x", "b", "b"]), ("c", [])]
    let e : Engine := { graph := t.view }
    let e' : Engine := { graph := (DependencyGraph.ofBindings t.rows).view }
    "a" ∈ t.keys ∧ "c" ∈ t.keys ∧
      e.allPaths "a" "c" = .ok (List.replicate 4 ⟨["a", "b", "c"]⟩) ∧
      e'.allPaths "a" "c" = .ok (List.replicate 4 ⟨["a", "b", "c"]⟩ : List Path).eraseDups ∧
      (e'.graph.dependents "c").Perm (e.graph.dependents "c") := by
  intro t e e'
  have hsource : "a" ∈ t.keys := by decide +kernel
  have htarget : "c" ∈ t.keys := by decide +kernel
  have hall : e.allPaths "a" "c" = .ok (List.replicate 4 ⟨["a", "b", "c"]⟩) := by decide +kernel
  have hwatch : e.watch.Silent := fun _ => rfl
  have hwatch' : e'.watch.Silent := fun _ => rfl
  obtain ⟨-, -, ⟨paths, hpaths, hpaths'⟩, -⟩ :=
    answers_of_declared t e e' rfl rfl hwatch hwatch' "a" "c" hsource htarget
  obtain ⟨-, hdependents, -⟩ :=
    answers_of_declared t e e' rfl rfl hwatch hwatch' "c" "a" htarget hsource
  rw [hall] at hpaths
  obtain rfl := Except.ok.inj hpaths
  exact ⟨hsource, htarget, hall, hpaths', hdependents⟩

end BindingGraph.TableGraph
