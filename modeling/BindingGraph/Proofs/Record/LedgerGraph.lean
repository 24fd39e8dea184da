import BindingGraph.Proofs.Graph.Groups
import BindingGraph.Proofs.Record.Ledger

/-!
# The graph of a ledger

Keys are declared first, so they are the first nodes, in the order of the ledger; names that are
only depended on follow (`Ledger.nodes_graph_eq`). A ledger that is already closed under
dependencies adds nothing to its keys (`Ledger.nodes_graph_of_closed`). Edges come group by
group, one group to a key (`Ledger.edges_graph`), and the graph's own groups list them in the
same order (`Ledger.edgesOf_bindings_graph`).
-/

namespace BindingGraph.Ledger

open DependencyGraph

variable {ledger : Ledger}

/-! ## Nodes -/

theorem nodes_graph (ledger : Ledger) :
    ledger.graph.nodes =
      (ledger.bindings.flatMap fun record =>
        (Declaration.binding record.key record.dependencies).mentions).foldl insertEnd
          (ledger.keys.foldl insertEnd []) := by
  rw [graph, nodes_ofDeclarations, List.flatMap_append, List.foldl_append, List.flatMap_map,
    List.flatMap_map]
  congr 2
  exact (List.map_eq_flatMap).symm

theorem mem_nodes_graph_iff {name : String} :
    name ∈ ledger.graph.nodes ↔
      ∃ record ∈ ledger.bindings, name = record.key ∨ name ∈ record.dependencies := by
  rw [nodes_graph, mem_foldl_insertEnd_iff, mem_foldl_insertEnd_iff]
  simp only [keys, Declaration.mentions, List.mem_flatMap, List.mem_cons, List.mem_map,
    List.not_mem_nil, or_false, false_or]
  constructor
  · rintro (⟨record, hrecord, rfl⟩ | ⟨record, hrecord, rfl | ⟨dependency, hdependency, rfl | rfl⟩⟩)
    · exact ⟨record, hrecord, Or.inl rfl⟩
    · exact ⟨record, hrecord, Or.inl rfl⟩
    · exact ⟨record, hrecord, Or.inl rfl⟩
    · exact ⟨record, hrecord, Or.inr hdependency⟩
  · rintro ⟨record, hrecord, rfl | hname⟩
    · exact Or.inl ⟨record, hrecord, rfl⟩
    · exact Or.inr ⟨record, hrecord, Or.inr ⟨name, hname, Or.inr rfl⟩⟩

/-- Every node of the graph of a proper ledger has a proper name. -/
theorem IsProper.isName_of_mem_nodes (h : ledger.IsProper) {name : String}
    (hname : name ∈ ledger.graph.nodes) : IsName name := by
  obtain ⟨record, hrecord, rfl | hdependency⟩ := mem_nodes_graph_iff.mp hname
  · exact (h.isProper_of_mem record hrecord).key
  · exact (h.isProper_of_mem record hrecord).dependencies name hdependency

theorem foldl_insertEnd_keys (hkeys : ledger.keys.Nodup) :
    ledger.keys.foldl insertEnd [] = ledger.keys :=
  foldl_insertEnd_of_nodup hkeys

/-- Behind the keys come the dependencies that are no keys, each where the keys first need it. -/
theorem nodes_graph_eq (hkeys : ledger.keys.Nodup) :
    ledger.graph.nodes =
      ledger.keys ++
        ((ledger.bindings.flatMap Record.dependencies).filter (· ∉ ledger.keys)).eraseDups := by
  rw [nodes_graph, foldl_insertEnd_keys hkeys, foldl_insertEnd_eq, List.filter_flatMap,
    List.filter_flatMap]
  congr 2
  apply List.flatMap_congr
  intro record hrecord
  have hkey : record.key ∈ ledger.keys := List.mem_map_of_mem hrecord
  -- A declaration mentions its key again before every dependency, which adds nothing.
  rw [Declaration.mentions, List.filter_cons_of_neg (by simpa using hkey), List.filter_flatMap]
  generalize record.dependencies = dependencies
  induction dependencies with
  | nil => rfl
  | cons dependency dependencies ih =>
    rw [List.flatMap_cons, ih]
    by_cases hdependency : dependency ∈ ledger.keys
    · simp [hkey, hdependency]
    · simp [hkey, hdependency]

theorem keys_prefix_nodes (hkeys : ledger.keys.Nodup) : ledger.keys <+: ledger.graph.nodes :=
  ⟨_, (nodes_graph_eq hkeys).symm⟩

/-- If every dependency is a key, the keys are all nodes. -/
theorem nodes_graph_of_closed (hkeys : ledger.keys.Nodup)
    (hclosed : ∀ record ∈ ledger.bindings, record.dependencies ⊆ ledger.keys) :
    ledger.graph.nodes = ledger.keys := by
  have hnone : (ledger.bindings.flatMap Record.dependencies).filter (· ∉ ledger.keys) = [] := by
    rw [List.filter_eq_nil_iff]
    intro name hname
    obtain ⟨record, hrecord, hname⟩ := List.mem_flatMap.mp hname
    simpa using hclosed record hrecord hname
  rw [nodes_graph_eq hkeys, hnone, List.eraseDups_nil, List.append_nil]

/-! ## Edges -/

/-- Each key with its dependencies, each of them once. -/
def groups (ledger : Ledger) : List (String × List String) :=
  ledger.bindings.map fun record => (record.key, record.dependencies.foldl insertEnd [])

theorem keys_groups (ledger : Ledger) : ledger.groups.map (·.1) = ledger.keys := by
  rw [groups, List.map_map]
  rfl

theorem foldl_insertEnd_edges {bindings : List Record} (hkeys : (bindings.map Record.key).Nodup) :
    (bindings.flatMap fun record =>
        (Declaration.binding record.key record.dependencies).edges).foldl insertEnd [] =
      edgesOf (bindings.map fun record =>
        (record.key, record.dependencies.foldl insertEnd [])) := by
  induction bindings with
  | nil => rfl
  | cons record bindings ih =>
    rw [List.map_cons, List.nodup_cons] at hkeys
    have hinjective : Function.Injective fun target : String => (record.key, target) :=
      fun a b heq => (Prod.ext_iff.mp heq).2
    have hfirst : (Declaration.binding record.key record.dependencies).edges.foldl insertEnd [] =
        (record.dependencies.foldl insertEnd []).map fun target => (record.key, target) :=
      foldl_insertEnd_map hinjective [] record.dependencies
    rw [List.flatMap_cons, List.foldl_append, hfirst, List.map_cons, edgesOf_cons, ← ih hkeys.2]
    -- What follows has other sources, so the first group stays as it is.
    rw [← List.append_nil (List.map _ _), foldl_insertEnd_append, List.append_nil]
    intro edge hedge hmem
    obtain ⟨target, -, rfl⟩ := List.mem_map.mp hmem
    obtain ⟨other, hother, hedge⟩ := List.mem_flatMap.mp hedge
    obtain ⟨target', -, heq⟩ := List.mem_map.mp hedge
    exact hkeys.1 (List.mem_map.mpr ⟨other, hother, (Prod.ext_iff.mp heq).1⟩)

theorem edges_graph (hkeys : ledger.keys.Nodup) : ledger.graph.edges = edgesOf ledger.groups := by
  have hnodes : ledger.bindings.flatMap (fun record => (Declaration.node record.key).edges) = [] :=
    List.flatMap_eq_nil_iff.mpr fun _ _ => rfl
  rw [graph, edges_ofDeclarations, List.flatMap_append, List.flatMap_map, List.flatMap_map, hnodes,
    List.nil_append]
  exact foldl_insertEnd_edges hkeys

/-- The graph's own groups list its edges in the order in which they were declared. -/
theorem edgesOf_bindings_graph (hkeys : ledger.keys.Nodup) :
    edgesOf ledger.graph.bindings = ledger.graph.edges := by
  obtain ⟨others, hothers⟩ := keys_prefix_nodes hkeys
  have hnodup : (ledger.groups.map (·.1)).Nodup := (keys_groups ledger).symm ▸ hkeys
  -- Keys have the dependencies of their group.
  have hfront : ledger.keys.map (fun node => (node, ledger.graph.dependencies node)) =
      ledger.groups := by
    rw [keys, groups, List.map_map]
    apply List.map_congr_left
    intro record hrecord
    have htargets : targets (edgesOf ledger.groups) record.key =
        record.dependencies.foldl insertEnd [] :=
      targets_edgesOf hnodup (List.mem_map_of_mem hrecord)
    rw [← edges_graph hkeys] at htargets
    exact Prod.ext rfl htargets
  -- The other nodes have none.
  have hback : edgesOf (others.map fun node => (node, ledger.graph.dependencies node)) = [] := by
    apply List.flatMap_eq_nil_iff.mpr
    intro group hgroup
    obtain ⟨node, hnode, rfl⟩ := List.mem_map.mp hgroup
    have hfresh : node ∉ ledger.groups.map (·.1) := by
      rw [keys_groups]
      intro hkey
      have hsplit := ledger.graph.nodes_nodup
      rw [← hothers] at hsplit
      exact (List.nodup_append.mp hsplit).2.2 node hkey node hnode rfl
    have htargets := targets_edgesOf_eq_nil hfresh
    rw [← edges_graph hkeys] at htargets
    rw [List.map_eq_nil_iff]
    exact htargets
  rw [DependencyGraph.bindings, ← hothers, List.map_append, edgesOf_append, hfront, hback,
    List.append_nil, edges_graph hkeys]

end BindingGraph.Ledger
