import BindingGraph.Proofs.Graph.Declarations

/-!
# Edges grouped by their source

A graph lists each node with its dependencies (`DependencyGraph.bindings`). These groups
hold the edges of the graph, each once but not always in the order in which they were
declared (`perm_edgesOf_bindings`); what each name depends on can be read off them all the
same (`targets_edgesOf`).
-/

namespace BindingGraph

/-- The edges of groups that each join a source to its targets. -/
def edgesOf (groups : List (String × List String)) : List (String × String) :=
  groups.flatMap fun group => group.2.map fun target => (group.1, target)

/-- The targets of a source among edges. -/
def targets (edges : List (String × String)) (source : String) : List String :=
  (edges.filter (·.1 == source)).map (·.2)

section Groups

variable {groups : List (String × List String)} {source : String}

theorem targets_append (front back : List (String × String)) (source : String) :
    targets (front ++ back) source = targets front source ++ targets back source := by
  rw [targets, List.filter_append, List.map_append]
  rfl

theorem edgesOf_append (front back : List (String × List String)) :
    edgesOf (front ++ back) = edgesOf front ++ edgesOf back :=
  List.flatMap_append

theorem edgesOf_cons (group : String × List String) (groups : List (String × List String)) :
    edgesOf (group :: groups) = group.2.map (fun target => (group.1, target)) ++ edgesOf groups :=
  List.flatMap_cons

theorem mem_edgesOf_iff {edge : String × String} :
    edge ∈ edgesOf groups ↔ ∃ group ∈ groups, group.1 = edge.1 ∧ edge.2 ∈ group.2 := by
  unfold edgesOf
  constructor
  · intro h
    obtain ⟨group, hgroup, hedge⟩ := List.mem_flatMap.mp h
    obtain ⟨target, htarget, rfl⟩ := List.mem_map.mp hedge
    exact ⟨group, hgroup, rfl, htarget⟩
  · rintro ⟨group, hgroup, hsource, htarget⟩
    exact List.mem_flatMap.mpr
      ⟨group, hgroup, List.mem_map.mpr ⟨edge.2, htarget, Prod.ext hsource rfl⟩⟩

theorem targets_map_self (source : String) (names : List String) :
    targets (names.map fun target => (source, target)) source = names := by
  have hall : (names.map fun target => (source, target)).filter (·.1 == source) =
      names.map fun target => (source, target) := by
    simp
  rw [targets, hall, List.map_map]
  exact List.map_id' names

theorem targets_eq_nil {edges : List (String × String)} (h : ∀ edge ∈ edges, edge.1 ≠ source) :
    targets edges source = [] := by
  rw [targets, List.map_eq_nil_iff, List.filter_eq_nil_iff]
  intro edge hedge heq
  exact h edge hedge (beq_iff_eq.mp heq)

theorem targets_edgesOf_eq_nil (h : source ∉ groups.map (·.1)) :
    targets (edgesOf groups) source = [] := by
  apply targets_eq_nil
  intro edge hedge heq
  obtain ⟨group, hgroup, hsource, -⟩ := mem_edgesOf_iff.mp hedge
  exact h (List.mem_map.mpr ⟨group, hgroup, hsource.trans heq⟩)

/-- With one group to a source, its targets are those of its group. -/
theorem targets_edgesOf {names : List String} (hkeys : (groups.map (·.1)).Nodup)
    (h : (source, names) ∈ groups) : targets (edgesOf groups) source = names := by
  induction groups with
  | nil => cases h
  | cons group groups ih =>
    rw [List.map_cons, List.nodup_cons] at hkeys
    rw [edgesOf_cons, targets_append]
    rcases List.mem_cons.mp h with heq | h
    · subst heq
      rw [targets_map_self, targets_edgesOf_eq_nil hkeys.1, List.append_nil]
    · have hother : ∀ edge ∈ group.2.map fun target => (group.1, target), edge.1 ≠ source := by
        intro edge hedge heq
        obtain ⟨target, -, rfl⟩ := List.mem_map.mp hedge
        exact hkeys.1 (List.mem_map.mpr ⟨(source, names), h, heq.symm⟩)
      rw [targets_eq_nil hother, ih hkeys.2 h]
      rfl

theorem nodup_edgesOf (hkeys : (groups.map (·.1)).Nodup) (h : ∀ group ∈ groups, group.2.Nodup) :
    (edgesOf groups).Nodup := by
  induction groups with
  | nil => exact List.nodup_nil
  | cons group groups ih =>
    rw [List.map_cons, List.nodup_cons] at hkeys
    rw [edgesOf_cons, List.nodup_append]
    refine ⟨?_, ih hkeys.2 fun other hother => h other (List.mem_cons_of_mem _ hother), ?_⟩
    · exact (h group List.mem_cons_self).map fun a b heq => (Prod.ext_iff.mp heq).2
    · rintro edge hedge _ hmem rfl
      obtain ⟨target, -, rfl⟩ := List.mem_map.mp hedge
      obtain ⟨other, hother, hsource, -⟩ := mem_edgesOf_iff.mp hmem
      exact hkeys.1 (List.mem_map.mpr ⟨other, hother, hsource⟩)

/-- What is put in at the end of the edges is put in at the end of the targets of its source. -/
theorem targets_insertEnd (edges : List (String × String)) (edge : String × String)
    (source : String) :
    targets (insertEnd edges edge) source =
      (targets [edge] source).foldl insertEnd (targets edges source) := by
  obtain ⟨other, target⟩ := edge
  by_cases hsource : other = source
  · subst hsource
    have hmem : target ∈ targets edges other ↔ (other, target) ∈ edges := by simp [targets]
    have hone : targets [(other, target)] other = [target] := by simp [targets]
    rw [hone, List.foldl_cons, List.foldl_nil, insertEnd, insertEnd, if_congr hmem rfl rfl]
    split
    · rfl
    · rw [targets_append, hone]
  · have hnone : targets [(other, target)] source = [] := by simp [targets, hsource]
    rw [hnone, List.foldl_nil, insertEnd]
    split
    · rfl
    · rw [targets_append, hnone, List.append_nil]

/-- If edges are kept where they first occur, so are the targets of a source. -/
theorem targets_foldl_insertEnd (edges : List (String × String)) (source : String) :
    targets (edges.foldl insertEnd []) source = (targets edges source).eraseDups := by
  have hflat : edges.flatMap (fun edge => targets [edge] source) = targets edges source := by
    induction edges with
    | nil => rfl
    | cons edge edges ih => rw [List.flatMap_cons, ih, ← targets_append, List.singleton_append]
  have hfold := @view_foldl _ _ _ _ insertEnd (targets · source) (fun edge => targets [edge] source)
    (fun edges edge => targets_insertEnd edges edge source) [] edges
  rw [hflat] at hfold
  exact hfold.trans (foldl_insertEnd_nil _)

end Groups

/-! ## The groups of a graph -/

namespace DependencyGraph

theorem ext_of_edges {g h : DependencyGraph} (hnodes : g.nodes = h.nodes)
    (hedges : g.edges = h.edges) :
    g = h := by
  cases g
  cases h
  cases hnodes
  cases hedges
  rfl

theorem keys_bindings (g : DependencyGraph) : g.bindings.map (·.1) = g.nodes := by
  rw [bindings, List.map_map]
  exact List.map_id' g.nodes

theorem mem_edgesOf_bindings_iff {g : DependencyGraph} {edge : String × String} :
    edge ∈ edgesOf g.bindings ↔ edge ∈ g.edges := by
  rw [mem_edgesOf_iff]
  constructor
  · rintro ⟨group, hgroup, hsource, htarget⟩
    obtain ⟨node, -, rfl⟩ := List.mem_map.mp hgroup
    have hedge := mem_dependencies_iff.mp htarget
    rwa [show node = edge.1 from hsource] at hedge
  · intro hedge
    refine ⟨(edge.1, g.dependencies edge.1), ?_, rfl, mem_dependencies_iff.mpr hedge⟩
    exact List.mem_map.mpr ⟨edge.1, (g.edges_declared edge hedge).1, rfl⟩

theorem nodup_edgesOf_bindings (g : DependencyGraph) : (edgesOf g.bindings).Nodup := by
  apply nodup_edgesOf
  · rw [keys_bindings]
    exact g.nodes_nodup
  · intro group hgroup
    obtain ⟨node, -, rfl⟩ := List.mem_map.mp hgroup
    exact nodup_dependencies g node

/-- The groups of a graph hold its edges, each once. -/
theorem perm_edgesOf_bindings (g : DependencyGraph) : (edgesOf g.bindings).Perm g.edges :=
  (List.perm_ext_iff_of_nodup (nodup_edgesOf_bindings g) g.edges_nodup).mpr
    fun _ => mem_edgesOf_bindings_iff

theorem dependencies_eq_nil {g : DependencyGraph} {name : String} (h : name ∉ g.nodes) :
    g.dependencies name = [] :=
  targets_eq_nil fun edge hedge heq => h (heq ▸ (g.edges_declared edge hedge).1)

/-- A name depends on the targets of its edges, each where it is first declared. -/
theorem dependencies_ofDeclarations (declarations : List Declaration) (name : String) :
    (ofDeclarations declarations).dependencies name =
      (targets (declarations.flatMap Declaration.edges) name).eraseDups := by
  rw [← targets_foldl_insertEnd, ← edges_ofDeclarations]
  rfl

/-- A graph and its groups agree on what each name depends on. -/
theorem targets_edgesOf_bindings (g : DependencyGraph) (name : String) :
    targets (edgesOf g.bindings) name = g.dependencies name := by
  by_cases hname : name ∈ g.nodes
  · apply targets_edgesOf
    · rw [keys_bindings]
      exact g.nodes_nodup
    · exact List.mem_map.mpr ⟨name, hname, rfl⟩
  · rw [dependencies_eq_nil hname]
    apply targets_edgesOf_eq_nil
    rwa [keys_bindings]

end DependencyGraph

end BindingGraph
