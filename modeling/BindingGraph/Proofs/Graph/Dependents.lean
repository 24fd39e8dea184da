import BindingGraph.Proofs.Graph.Indexed
import BindingGraph.Proofs.Search.SimplePaths

/-!
# Dependents by edges and by scanning

The dependents of a name can be read off the edges that come in, sorted into the order of the nodes,
or found by going through all nodes and their dependencies. Both are lists of the same nodes in the
same order (`DependencyGraph.dependents_eq_scanDependents`), also where they are read off a node
store (`IndexedGraph.dependents_scanned`).
-/

namespace BindingGraph

namespace DependencyGraph

/-- Whatever has a name among its dependencies is a node, so scanning the nodes misses
no dependent. -/
theorem mem_dependents_iff_mem_scanDependents {g : DependencyGraph} {name node : String} :
    node ∈ g.dependents name ↔ node ∈ Graph.scanDependents g.nodes g.dependencies name := by
  rw [Graph.mem_scanDependents_iff, mem_dependents_iff, mem_dependencies_iff]
  exact (and_iff_right_of_imp fun hedge => (g.edges_declared _ hedge).1).symm

/-- Two lists of the same nodes in declaration order are equal. -/
theorem dependents_eq_scanDependents (g : DependencyGraph) (name : String) :
    g.dependents name = Graph.scanDependents g.nodes g.dependencies name := by
  have hscan : (Graph.scanDependents g.nodes g.dependencies name).Nodup := g.nodes_nodup.filter _
  have hordered : (Graph.scanDependents g.nodes g.dependencies name).Pairwise
      fun a b => g.nodes.idxOf a ≤ g.nodes.idxOf b :=
    ((Graph.pairwise_idxOf_lt g.nodes_nodup).imp Nat.le_of_lt).filter _
  have hperm : (g.dependents name).Perm (Graph.scanDependents g.nodes g.dependencies name) :=
    (List.perm_ext_iff_of_nodup (g.nodup_dependents name) hscan).mpr fun _ =>
      mem_dependents_iff_mem_scanDependents
  refine List.Perm.eq_of_pairwise ?_ (g.pairwise_dependents name) hordered hperm
  intro a b ha _ hab hba
  have hnode : a ∈ g.nodes := (g.edges_declared _ (mem_dependents_iff.mp ha)).1
  exact (List.idxOf_inj hnode).mp (Nat.le_antisymm hab hba)

end DependencyGraph

namespace IndexedGraph

open DependencyGraph

/-- **Dependents.** After any declarations the edges into a name, sorted by the numbers of their
sources, give what scanning all nodes gives: the nodes that have the name among their dependencies,
each once and in the order of the nodes, and none for a name that is no node. Queries are answered
with this list. -/
theorem dependents_scanned (σ : Type) [NodeStore σ] [LawfulNodeStore σ]
    (declarations : List Declaration) (name : String) :
    let g : IndexedGraph σ := ofDeclarations declarations
    g.dependents name = Graph.scanDependents g.nodes g.dependencies name ∧
    (g.dependents name).Nodup ∧ (g.dependents name).Sublist g.nodes ∧
    (∀ node, node ∈ g.dependents name ↔ node ∈ g.nodes ∧ name ∈ g.dependencies node) ∧
    (DependencyGraph.ofDeclarations declarations).view.dependents name = g.dependents name := by
  intro g
  let plain := DependencyGraph.ofDeclarations declarations
  have h : g.Holds plain := holds_ofDeclarations declarations
  have hdependencies : g.dependencies = plain.dependencies := funext h.dependencies_eq
  have hscan : g.dependents name = Graph.scanDependents g.nodes g.dependencies name := by
    rw [h.dependents_eq, h.nodes_eq, hdependencies, plain.dependents_eq_scanDependents]
  refine ⟨hscan, ?_, ?_, ?_, (h.dependents_eq name).symm⟩
  · rw [h.dependents_eq]
    exact plain.nodup_dependents name
  · rw [hscan]
    exact List.filter_sublist
  · intro node
    rw [hscan, Graph.mem_scanDependents_iff]

/-- Edges that come in the other order than their sources, one of them twice, and a node that
needs itself. -/
theorem dependents_scanned_edgeStack :
    let declarations : List Declaration :=
      [.node "a", .dependency "c" "b", .binding "b" ["b", "a"], .dependency "a" "b",
        .dependency "c" "b"]
    let g : IndexedGraph EdgeStack := ofDeclarations declarations
    g.nodes = ["a", "c", "b"] ∧ NodeStore.sources g.store 2 = [0, 2, 1] ∧
      g.dependents "b" = ["a", "c", "b"] ∧ g.dependents "x" = [] := by
  intro declarations g
  have hknown := (dependents_scanned EdgeStack declarations "b").1
  have hunknown := (dependents_scanned EdgeStack declarations "x").1
  exact ⟨by decide +kernel, by decide +kernel, hknown.trans (by decide +kernel),
    hunknown.trans (by decide +kernel)⟩

end IndexedGraph

end BindingGraph
