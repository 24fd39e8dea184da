import BindingGraph.Graph.Table
import BindingGraph.Proofs.Graph.Groups

/-!
# A table and the graph that it declares

The rows of a table can be taken as bindings and declared one after the other. The dependency graph
that this gives has the keys of the table among its nodes; it lists the dependencies of each name
without their repeats (`dependencies_ofBindings_rows`), and its dependents in the order of its own
nodes instead of the order of keys (`perm_dependents_rows`).
-/

namespace BindingGraph

namespace DependencyGraph

theorem flatMap_edges_bindings (bindings : List (String × List String)) :
    (bindings.map fun (name, dependencies) => Declaration.binding name dependencies).flatMap
      Declaration.edges = edgesOf bindings := by
  rw [List.flatMap_map]
  rfl

theorem dependencies_ofBindings (bindings : List (String × List String)) (name : String) :
    (ofBindings bindings).dependencies name = (targets (edgesOf bindings) name).eraseDups := by
  rw [ofBindings, dependencies_ofDeclarations, flatMap_edges_bindings]

theorem mem_nodes_ofBindings {bindings : List (String × List String)} {name : String}
    (h : name ∈ bindings.map (·.1)) : name ∈ (ofBindings bindings).nodes := by
  obtain ⟨binding, hbinding, rfl⟩ := List.mem_map.mp h
  rw [ofBindings, nodes_ofDeclarations, mem_foldl_insertEnd_iff]
  refine .inr (List.mem_flatMap.mpr ⟨_, List.mem_map_of_mem hbinding, ?_⟩)
  exact List.mem_cons_self

end DependencyGraph

namespace TableGraph

variable {t : TableGraph} {name dependent : String}

theorem keys_nodup (t : TableGraph) : t.keys.Nodup := by
  rw [keys, List.Nodup, List.pairwise_map]
  refine t.sorted.imp ?_
  intro row later hlt heq
  rw [heq] at hlt
  exact String.lt_irrefl _ hlt

/-- A name depends on the targets of its row. -/
theorem targets_edgesOf_rows (t : TableGraph) (name : String) :
    targets (edgesOf t.rows) name = t.dependencies name := by
  unfold dependencies
  cases hlookup : t.rows.lookup name with
  | some names =>
    obtain ⟨front, back, hrows, -⟩ := List.lookup_eq_some_iff.mp hlookup
    exact targets_edgesOf t.keys_nodup (hrows ▸ List.mem_append_right _ List.mem_cons_self)
  | none =>
    apply targets_edgesOf_eq_nil
    intro hkey
    obtain ⟨row, hrow, rfl⟩ := List.mem_map.mp hkey
    simpa using List.lookup_eq_none_iff.mp hlookup row hrow

/-- Only keys have dependencies. -/
theorem mem_keys_of_mem_dependencies (h : name ∈ t.dependencies dependent) :
    dependent ∈ t.keys := by
  by_contra hkey
  have hnone : t.dependencies dependent = [] := t.view.dependencies_eq_nil dependent hkey
  rw [hnone] at h
  cases h

/-- Declared row by row, a name has its dependencies without their later repeats. -/
theorem dependencies_ofBindings_rows (t : TableGraph) (name : String) :
    (DependencyGraph.ofBindings t.rows).dependencies name = (t.dependencies name).eraseDups := by
  rw [DependencyGraph.dependencies_ofBindings, targets_edgesOf_rows]

/-- Looking edges up and scanning all keys find the same dependents. -/
theorem perm_dependents_rows (t : TableGraph) (name : String) :
    ((DependencyGraph.ofBindings t.rows).dependents name).Perm (t.view.dependents name) := by
  have hscan : (t.view.dependents name).Nodup := t.keys_nodup.filter _
  refine (List.perm_ext_iff_of_nodup (DependencyGraph.nodup_dependents _ name) hscan).mpr ?_
  intro dependent
  rw [DependencyGraph.mem_dependents_iff, ← DependencyGraph.mem_dependencies_iff,
    dependencies_ofBindings_rows, List.mem_eraseDups]
  exact (and_iff_right_of_imp mem_keys_of_mem_dependencies).symm.trans
    Graph.mem_scanDependents_iff.symm

end TableGraph

end BindingGraph
