import BindingGraph.Graph.Indexed
import BindingGraph.Proofs.Graph.Groups

/-!
# What an indexed graph holds

An indexed graph over any lawful node store keeps the same nodes and edges as a plain dependency
graph: the number of a name is its place among the nodes, and the store lists the targets of a node
by number, latest first (`IndexedGraph.Holds`). Every declaration keeps this (`Holds.declare`), so
it is so after any sequence of them (`holds_ofDeclarations`), and whatever is read off the plain
graph is read off the indexed one as well (`Holds.nodes_eq`, `Holds.contains_iff`,
`Holds.dependencies_eq`, `Holds.dependents_eq`).

The main statement, `ofDeclarations_reads`, says what an indexed graph answers in terms of what its
declarations mention.
-/

namespace BindingGraph

namespace DependencyGraph

variable {g : DependencyGraph} {name source target : String}

/-! ## One declaration more -/

theorem addNode_of_mem (h : name ∈ g.nodes) : g.addNode name = g := dif_pos h

theorem nodes_addNode_of_not_mem (h : name ∉ g.nodes) :
    (g.addNode name).nodes = g.nodes ++ [name] := by
  rw [nodes_addNode, insertEnd, if_neg h]

theorem dependencies_addNode (g : DependencyGraph) (name other : String) :
    (g.addNode name).dependencies other = g.dependencies other := by
  rw [dependencies, edges_addNode]
  rfl

theorem origins_addNode (g : DependencyGraph) (name other : String) :
    (g.addNode name).origins other = g.origins other := by
  rw [origins, edges_addNode]
  rfl

theorem origins_eq_nil (h : name ∉ g.nodes) : g.origins name = [] := by
  rw [List.eq_nil_iff_forall_not_mem]
  intro source hsource
  exact h (g.edges_declared _ (mem_origins_iff.mp hsource)).2

theorem addEdge_of_mem (h : source ∈ g.nodes ∧ target ∈ g.nodes)
    (hedge : (source, target) ∈ g.edges) :
    g.addEdge source target h = g := dif_pos hedge

theorem edges_addEdge_of_not_mem (h : source ∈ g.nodes ∧ target ∈ g.nodes)
    (hedge : (source, target) ∉ g.edges) :
    (g.addEdge source target h).edges = g.edges ++ [(source, target)] := by
  rw [edges_addEdge, insertEnd, if_neg hedge]

theorem dependencies_addEdge_of_not_mem (h : source ∈ g.nodes ∧ target ∈ g.nodes)
    (hedge : (source, target) ∉ g.edges) (name : String) :
    (g.addEdge source target h).dependencies name =
      g.dependencies name ++ if name = source then [target] else [] := by
  rw [dependencies, edges_addEdge_of_not_mem h hedge, List.filter_append, List.map_append]
  by_cases hname : name = source
  · simp [dependencies, hname]
  · simp [dependencies, hname, Ne.symm hname]

theorem origins_addEdge_of_not_mem (h : source ∈ g.nodes ∧ target ∈ g.nodes)
    (hedge : (source, target) ∉ g.edges) (name : String) :
    (g.addEdge source target h).origins name =
      g.origins name ++ if name = target then [source] else [] := by
  rw [origins, edges_addEdge_of_not_mem h hedge, List.filter_append, List.map_append]
  by_cases hname : name = target
  · simp [origins, hname]
  · simp [origins, hname, Ne.symm hname]

end DependencyGraph

namespace IndexedGraph

open DependencyGraph

variable {σ : Type} [NodeStore σ] {x : IndexedGraph σ} {g : DependencyGraph}
  {name source target : String}

/-- An indexed graph holds the nodes of a plain one, each at the number of its place, and
its edges. -/
structure Holds (x : IndexedGraph σ) (g : DependencyGraph) : Prop where
  nodeCount_eq : x.nodeCount = g.nodes.length
  edgeCount_eq : x.edgeCount = g.edges.length
  number_eq : ∀ name, x.number? name = if name ∈ g.nodes then some (g.nodes.idxOf name) else none
  nameAt_eq : ∀ name ∈ g.nodes, NodeStore.nameAt x.store (g.nodes.idxOf name) = name
  targets_eq : ∀ name ∈ g.nodes, NodeStore.targets x.store (g.nodes.idxOf name) =
    ((g.dependencies name).map g.nodes.idxOf).reverse
  sources_perm : ∀ name ∈ g.nodes, (NodeStore.sources x.store (g.nodes.idxOf name)).Perm
    ((g.origins name).map g.nodes.idxOf)
  targets_unused : ∀ number, g.nodes.length ≤ number → NodeStore.targets x.store number = []
  sources_unused : ∀ number, g.nodes.length ≤ number → NodeStore.sources x.store number = []

/-! ## Declarations keep it -/

/-- A name that is a node already is found in the index. -/
theorem Holds.addNode_of_mem (h : x.Holds g) (hname : name ∈ g.nodes) :
    x.addNode name = (g.nodes.idxOf name, x) := by
  rw [addNode, h.number_eq, if_pos hname]

section Declarations

variable [LawfulNodeStore σ]

theorem holds_empty : (empty : IndexedGraph σ).Holds DependencyGraph.empty where
  nodeCount_eq := LawfulNodeStore.nodeCount_empty
  edgeCount_eq := LawfulNodeStore.edgeCount_empty
  number_eq _ := rfl
  nameAt_eq _ h := absurd h List.not_mem_nil
  targets_eq _ h := absurd h List.not_mem_nil
  sources_perm _ h := absurd h List.not_mem_nil
  targets_unused number _ := LawfulNodeStore.targets_empty number
  sources_unused number _ := LawfulNodeStore.sources_empty number

theorem Holds.addNode_of_not_mem (h : x.Holds g) (hname : name ∉ g.nodes) :
    x.addNode name =
      (g.nodes.length, ⟨(NodeStore.addNode x.store name).2,
        (name, g.nodes.length) :: x.numbers⟩) := by
  have hnumber : (NodeStore.addNode x.store name).1 = g.nodes.length :=
    (LawfulNodeStore.addNode_number x.store name).trans h.nodeCount_eq
  rw [addNode, h.number_eq, if_neg hname]
  simp only [hnumber]

/-- A new node goes behind all others, whose numbers and edges stay as they are. -/
theorem Holds.addNode_new (h : x.Holds g) (hname : name ∉ g.nodes) :
    Holds ⟨(NodeStore.addNode x.store name).2, (name, g.nodes.length) :: x.numbers⟩
      (g.addNode name) := by
  have hnodes : (g.addNode name).nodes = g.nodes ++ [name] := nodes_addNode_of_not_mem hname
  have hcount : NodeStore.nodeCount x.store = g.nodes.length := h.nodeCount_eq
  have hold : ∀ other ∈ g.nodes, (g.addNode name).nodes.idxOf other = g.nodes.idxOf other := by
    intro other hother
    rw [hnodes, List.idxOf_append_of_mem hother]
  have hnew : (g.addNode name).nodes.idxOf name = g.nodes.length := by
    rw [hnodes, List.idxOf_append_of_notMem hname, List.idxOf_cons_self, Nat.add_zero]
  have hmem : ∀ other ∈ (g.addNode name).nodes, other ∈ g.nodes ∨ other = name :=
    fun other => mem_nodes_addNode.mp
  constructor
  case nodeCount_eq =>
    show NodeStore.nodeCount (NodeStore.addNode x.store name).2 = _
    rw [LawfulNodeStore.nodeCount_addNode, hcount, hnodes, List.length_append,
      List.length_singleton]
  case edgeCount_eq =>
    show NodeStore.edgeCount (NodeStore.addNode x.store name).2 = _
    rw [LawfulNodeStore.edgeCount_addNode, edges_addNode]
    exact h.edgeCount_eq
  case number_eq =>
    intro other
    show List.lookup other ((name, g.nodes.length) :: x.numbers) = _
    rw [List.lookup_cons, hnodes]
    by_cases hother : other = name
    · subst hother
      simp [List.idxOf_append_of_notMem hname]
    · have hnumber : List.lookup other x.numbers = _ := h.number_eq other
      rw [beq_false_of_ne hother, hnumber]
      by_cases hmem : other ∈ g.nodes
      · simp [hmem, List.idxOf_append_of_mem hmem]
      · simp [hmem, hother]
  case nameAt_eq =>
    intro other hother
    rcases hmem other hother with hother | rfl
    · rw [hold other hother, LawfulNodeStore.nameAt_addNode_old, h.nameAt_eq other hother]
      exact hcount ▸ List.idxOf_lt_length_of_mem hother
    · rw [hnew, ← hcount, LawfulNodeStore.nameAt_addNode_new]
  case targets_eq =>
    intro other hother
    rw [LawfulNodeStore.targets_addNode, dependencies_addNode]
    rcases hmem other hother with hother | rfl
    · rw [hold other hother, h.targets_eq other hother]
      congr 1
      apply List.map_congr_left
      intro dependency hdependency
      exact (hold _ (mem_nodes_of_mem_dependencies hdependency)).symm
    · rw [hnew, h.targets_unused _ (Nat.le_refl _), dependencies_eq_nil hname]
      rfl
  case sources_perm =>
    intro other hother
    rw [LawfulNodeStore.sources_addNode, origins_addNode]
    rcases hmem other hother with hother | rfl
    · rw [hold other hother]
      refine (h.sources_perm other hother).trans (.of_eq ?_)
      apply List.map_congr_left
      intro origin horigin
      exact (hold _ (mem_nodes_of_mem_origins horigin)).symm
    · rw [hnew, h.sources_unused _ (Nat.le_refl _), origins_eq_nil hname]
      exact .nil
  case targets_unused =>
    intro number hnumber
    rw [hnodes, List.length_append] at hnumber
    rw [LawfulNodeStore.targets_addNode]
    exact h.targets_unused number (by omega)
  case sources_unused =>
    intro number hnumber
    rw [hnodes, List.length_append] at hnumber
    rw [LawfulNodeStore.sources_addNode]
    exact h.sources_unused number (by omega)

/-- Declaring a node keeps what is held, and answers with the place of the node. -/
theorem Holds.addNode (h : x.Holds g) (name : String) :
    (x.addNode name).2.Holds (g.addNode name) ∧
      (x.addNode name).1 = (g.addNode name).nodes.idxOf name := by
  by_cases hname : name ∈ g.nodes
  · rw [h.addNode_of_mem hname, DependencyGraph.addNode_of_mem hname]
    exact ⟨h, rfl⟩
  · rw [h.addNode_of_not_mem hname]
    refine ⟨h.addNode_new hname, ?_⟩
    rw [nodes_addNode_of_not_mem hname, List.idxOf_append_of_notMem hname, List.idxOf_cons_self,
      Nat.add_zero]

/-- The store knows of an edge by its numbers exactly if the graph has it. -/
theorem Holds.hasEdge_iff (h : x.Holds g) (hsource : source ∈ g.nodes) :
    NodeStore.hasEdge x.store (g.nodes.idxOf source) (g.nodes.idxOf target) ↔
      (source, target) ∈ g.edges := by
  rw [LawfulNodeStore.hasEdge_iff, h.targets_eq source hsource, List.mem_reverse, List.mem_map,
    ← mem_dependencies_iff]
  constructor
  · rintro ⟨dependency, hdependency, heq⟩
    rwa [← (List.idxOf_inj (mem_nodes_of_mem_dependencies hdependency)).mp heq]
  · intro hedge
    exact ⟨target, hedge, rfl⟩

/-- A new edge between two nodes: its target is the latest of its source. -/
theorem Holds.addEdge_new (h : x.Holds g) (hends : source ∈ g.nodes ∧ target ∈ g.nodes)
    (hedge : (source, target) ∉ g.edges) :
    Holds { x with store :=
        NodeStore.addEdge x.store (g.nodes.idxOf source) (g.nodes.idxOf target) }
      (g.addEdge source target hends) := by
  have hnodes : (g.addEdge source target hends).nodes = g.nodes :=
    nodes_addEdge g source target hends
  have hcount : NodeStore.nodeCount x.store = g.nodes.length := h.nodeCount_eq
  have hsource : g.nodes.idxOf source < NodeStore.nodeCount x.store :=
    hcount ▸ List.idxOf_lt_length_of_mem hends.1
  have htarget : g.nodes.idxOf target < NodeStore.nodeCount x.store :=
    hcount ▸ List.idxOf_lt_length_of_mem hends.2
  constructor
  case nodeCount_eq =>
    rw [hnodes, ← h.nodeCount_eq]
    exact LawfulNodeStore.nodeCount_addEdge _ _ _ hsource htarget
  case edgeCount_eq =>
    rw [edges_addEdge_of_not_mem hends hedge, List.length_append, List.length_singleton,
      ← h.edgeCount_eq]
    exact LawfulNodeStore.edgeCount_addEdge _ _ _ hsource htarget
  case number_eq =>
    intro name
    rw [hnodes]
    exact h.number_eq name
  case nameAt_eq =>
    intro name hname
    rw [hnodes] at hname ⊢
    rw [LawfulNodeStore.nameAt_addEdge _ _ _ _ hsource htarget, h.nameAt_eq name hname]
  case targets_eq =>
    intro name hname
    rw [hnodes] at hname ⊢
    rw [LawfulNodeStore.targets_addEdge _ _ _ _ hsource htarget, h.targets_eq name hname,
      dependencies_addEdge_of_not_mem hends hedge, if_congr (List.idxOf_inj hname) rfl rfl]
    by_cases heq : name = source
    · simp [heq]
    · simp [heq]
  case sources_perm =>
    intro name hname
    rw [hnodes] at hname ⊢
    refine (LawfulNodeStore.sources_addEdge _ _ _ _ hsource htarget).trans ?_
    rw [origins_addEdge_of_not_mem hends hedge, if_congr (List.idxOf_inj hname) rfl rfl]
    by_cases heq : name = target
    · simpa [heq] using
        ((h.sources_perm target hends.2).cons _).trans (List.perm_append_singleton _ _).symm
    · simpa [heq] using h.sources_perm name hname
  case targets_unused =>
    intro number hnumber
    rw [hnodes] at hnumber
    have hne : number ≠ g.nodes.idxOf source := by
      have := List.idxOf_lt_length_of_mem hends.1
      omega
    rw [LawfulNodeStore.targets_addEdge _ _ _ _ hsource htarget, if_neg hne,
      h.targets_unused number hnumber]
  case sources_unused =>
    intro number hnumber
    rw [hnodes] at hnumber
    have hne : number ≠ g.nodes.idxOf target := by
      have := List.idxOf_lt_length_of_mem hends.2
      omega
    have hperm := LawfulNodeStore.sources_addEdge x.store _ _ number hsource htarget
    rw [if_neg hne, h.sources_unused number hnumber] at hperm
    exact hperm.eq_nil

/-- Adding an edge between the numbers of two nodes keeps what is held. -/
theorem Holds.addEdge (h : x.Holds g) (hends : source ∈ g.nodes ∧ target ∈ g.nodes) :
    (x.addEdge (g.nodes.idxOf source) (g.nodes.idxOf target)).Holds
      (g.addEdge source target hends) := by
  by_cases hedge : (source, target) ∈ g.edges
  · rw [IndexedGraph.addEdge, if_pos ((h.hasEdge_iff hends.1).mpr hedge),
      addEdge_of_mem hends hedge]
    exact h
  · rw [IndexedGraph.addEdge, if_neg fun hhas => hedge ((h.hasEdge_iff hends.1).mp hhas)]
    exact h.addEdge_new hends hedge

theorem Holds.addDependency (h : x.Holds g) (source target : String) :
    (x.addDependency source target).Holds (g.addDependency source target) := by
  obtain ⟨hsource, hsourceNumber⟩ := h.addNode source
  obtain ⟨htarget, htargetNumber⟩ := hsource.addNode target
  -- The source keeps its number while the target is put in.
  have hkept : (g.addNode source).nodes.idxOf source =
      ((g.addNode source).addNode target).nodes.idxOf source := by
    have hmem : source ∈ (g.addNode source).nodes := mem_nodes_addNode.mpr (.inr rfl)
    rw [nodes_addNode _ target, insertEnd]
    split
    · rfl
    · rw [List.idxOf_append_of_mem hmem]
  show Holds (((x.addNode source).2.addNode target).2.addEdge (x.addNode source).1
    ((x.addNode source).2.addNode target).1) _
  rw [hsourceNumber, htargetNumber, hkept]
  exact htarget.addEdge _

theorem Holds.addBinding (h : x.Holds g) (node : String) (dependencies : List String) :
    (x.addBinding node dependencies).Holds (g.addBinding node dependencies) := by
  refine List.foldl_rel (h.addNode node).1 ?_
  intro dependency _ y k hy
  exact hy.addDependency node dependency

/-- Every declaration keeps what is held. -/
theorem Holds.declare (h : x.Holds g) (declaration : Declaration) :
    (x.declare declaration).Holds (g.declare declaration) := by
  cases declaration with
  | node name => exact (h.addNode name).1
  | dependency source target => exact h.addDependency source target
  | binding name dependencies => exact h.addBinding name dependencies

/-- After any declarations an indexed graph holds their graph. -/
theorem holds_ofDeclarations (declarations : List Declaration) :
    (ofDeclarations declarations : IndexedGraph σ).Holds (.ofDeclarations declarations) := by
  refine List.foldl_rel holds_empty ?_
  intro declaration _ y k hy
  exact hy.declare declaration

end Declarations

/-! ## What is read -/

theorem Holds.nodes_eq (h : x.Holds g) : x.nodes = g.nodes := by
  apply List.ext_getElem
  · rw [nodes, List.length_map, List.length_range, h.nodeCount_eq]
  · intro i hi hi'
    have hname := h.nameAt_eq g.nodes[i] (List.getElem_mem hi')
    rw [g.nodes_nodup.idxOf_getElem i hi'] at hname
    simpa [nodes] using hname

theorem Holds.contains_iff (h : x.Holds g) : x.contains name ↔ name ∈ g.nodes := by
  rw [contains, h.number_eq]
  split <;> simp [*]

/-- Neighbours that are found as the numbers of nodes are read as these nodes. -/
theorem Holds.neighbours_eq (h : x.Holds g) {find : Nat → List Nat} {names : List String}
    (hnone : name ∉ g.nodes → names = []) (hnames : ∀ other ∈ names, other ∈ g.nodes)
    (hfind : name ∈ g.nodes → find (g.nodes.idxOf name) = names.map g.nodes.idxOf) :
    x.neighbours find name = names := by
  rw [neighbours, h.number_eq]
  by_cases hname : name ∈ g.nodes
  · simp only [if_pos hname, hfind hname, List.map_map]
    calc names.map (NodeStore.nameAt x.store ∘ g.nodes.idxOf)
        = names.map id :=
          List.map_congr_left fun other hother => h.nameAt_eq other (hnames other hother)
      _ = names := List.map_id names
  · simp only [if_neg hname, hnone hname]

/-- Turned around, the store's targets are in insertion order. -/
theorem Holds.dependencies_eq (h : x.Holds g) (name : String) :
    x.dependencies name = g.dependencies name := by
  apply h.neighbours_eq
  · exact dependencies_eq_nil
  · exact fun _ => mem_nodes_of_mem_dependencies
  · intro hname
    rw [h.targets_eq name hname, List.reverse_reverse]

/-- Sorted by number, the store's sources are in declaration order. -/
theorem Holds.dependents_eq (h : x.Holds g) (name : String) :
    x.dependents name = g.dependents name := by
  have hperm := g.perm_dependents name
  apply h.neighbours_eq
  · intro hname
    rw [origins_eq_nil hname] at hperm
    exact hperm.eq_nil
  · intro other hother
    exact mem_nodes_of_mem_origins (hperm.mem_iff.mp hother)
  · intro hname
    have hsources : ((NodeStore.sources x.store (g.nodes.idxOf name)).mergeSort (· ≤ ·)).Pairwise
        fun a b => decide (a ≤ b) = true :=
      List.pairwise_mergeSort (fun a b c => by simpa using Nat.le_trans)
        (fun a b => by simpa using Nat.le_total a b) _
    have hdependents := List.pairwise_map.mpr (g.pairwise_dependents name)
    -- Two sorted lists of the same numbers are equal.
    refine List.Perm.eq_of_pairwise (fun _ _ _ _ => Nat.le_antisymm)
      (hsources.imp fun h => of_decide_eq_true h) hdependents ?_
    calc ((NodeStore.sources x.store (g.nodes.idxOf name)).mergeSort (· ≤ ·)).Perm
          (NodeStore.sources x.store (g.nodes.idxOf name)) := List.mergeSort_perm _ _
      _ |>.Perm ((g.origins name).map g.nodes.idxOf) := h.sources_perm name hname
      _ |>.Perm ((g.dependents name).map g.nodes.idxOf) := (hperm.map g.nodes.idxOf).symm

/-! ## What declarations mention -/

/-- What is declared later goes behind the nodes that are there. -/
theorem prefix_nodes_ofDeclarations (front : List Declaration) (declaration : Declaration)
    (back : List Declaration) :
    ((DependencyGraph.ofDeclarations front).declare declaration).nodes <+:
      (DependencyGraph.ofDeclarations (front ++ declaration :: back)).nodes := by
  have hrun : DependencyGraph.ofDeclarations (front ++ declaration :: back) =
      back.foldl DependencyGraph.declare
        ((DependencyGraph.ofDeclarations front).declare declaration) := by
    rw [DependencyGraph.ofDeclarations, List.foldl_append]
    rfl
  rw [hrun, view_foldl nodes_declare, foldl_insertEnd_eq]
  exact List.prefix_append _ _

/-- The number that a node is given when it is declared is its place, whatever is declared later. -/
theorem getElem?_nodes_of_addNode [LawfulNodeStore σ] (front back : List Declaration)
    (name : String) :
    (ofDeclarations (front ++ .node name :: back) : IndexedGraph σ).nodes[
      ((ofDeclarations front : IndexedGraph σ).addNode name).1]? = some name := by
  obtain ⟨later, hlater⟩ := prefix_nodes_ofDeclarations front (.node name) back
  have hmem : name ∈ ((DependencyGraph.ofDeclarations front).addNode name).nodes :=
    mem_nodes_addNode.mpr (.inr rfl)
  rw [(holds_ofDeclarations _).nodes_eq, ((holds_ofDeclarations front).addNode name).2, ← hlater]
  exact (List.getElem?_append_left (List.idxOf_lt_length_of_mem hmem)).trans
    (List.getElem?_idxOf hmem)

/-- **What an indexed graph answers.** After any declarations the nodes are the names that they
mention, each where it is first mentioned, and a name that is declared has been answered with its
place among them. A name depends on the targets of its declared edges, each where it is first
declared. Every edge is counted once as a dependency and once as a dependent. -/
theorem ofDeclarations_reads (σ : Type) [NodeStore σ] [LawfulNodeStore σ]
    (declarations : List Declaration) :
    let g : IndexedGraph σ := ofDeclarations declarations
    let mentions := declarations.flatMap Declaration.mentions
    let edges := declarations.flatMap Declaration.edges
    g.nodes = mentions.eraseDups ∧
    (∀ name, g.contains name ↔ name ∈ mentions) ∧
    (∀ front name back, declarations = front ++ .node name :: back →
      g.nodes[((ofDeclarations front : IndexedGraph σ).addNode name).1]? = some name) ∧
    (∀ name, g.dependencies name = (targets edges name).eraseDups) ∧
    (∀ name, name ∉ mentions → g.dependencies name = []) ∧
    g.nodeCount = g.nodes.length ∧
    g.edgeCount = (g.nodes.map fun node => (g.dependencies node).length).sum ∧
    g.edgeCount = (g.nodes.map fun node => (g.dependents node).length).sum := by
  intro g mentions edges
  let plain := DependencyGraph.ofDeclarations declarations
  have h : g.Holds plain := holds_ofDeclarations declarations
  have hnodes : plain.nodes = mentions.eraseDups := by
    rw [nodes_ofDeclarations, foldl_insertEnd_nil]
  have hmem : ∀ name, name ∈ plain.nodes ↔ name ∈ mentions := by
    intro name
    rw [hnodes, List.mem_eraseDups]
  refine ⟨h.nodes_eq.trans hnodes, fun name => h.contains_iff.trans (hmem name), ?_, ?_, ?_, ?_, ?_,
    ?_⟩
  · rintro front name back heq
    show (ofDeclarations declarations : IndexedGraph σ).nodes[_]? = _
    rw [heq]
    exact getElem?_nodes_of_addNode front back name
  · intro name
    rw [h.dependencies_eq, dependencies_ofDeclarations]
  · intro name hname
    rw [h.dependencies_eq, dependencies_eq_nil fun hnode => hname ((hmem name).mp hnode)]
  · rw [h.nodeCount_eq, h.nodes_eq]
  · simp only [h.nodes_eq, h.dependencies_eq]
    exact h.edgeCount_eq.trans plain.edgeCount_eq_sum_dependencies
  · simp only [h.nodes_eq, h.dependents_eq]
    exact h.edgeCount_eq.trans plain.edgeCount_eq_sum_dependents

/-- A name that is needed before it is declared, an edge that comes twice and a node that
needs itself. -/
theorem ofDeclarations_reads_edgeStack :
    let declarations : List Declaration :=
      [.dependency "b" "a", .node "a", .binding "a" ["a", "c", "a"], .node "d", .dependency "b" "a"]
    let g : IndexedGraph EdgeStack := ofDeclarations declarations
    g.nodes = ["b", "a", "c", "d"] ∧ g.dependencies "a" = ["a", "c"] ∧ g.edgeCount = 3 ∧
      ((ofDeclarations [.dependency "b" "a"] : IndexedGraph EdgeStack).addNode "a").1 = 1 ∧
      g.nodes[1]? = some "a" ∧ 3 = (g.nodes.map fun node => (g.dependents node).length).sum := by
  intro declarations g
  obtain ⟨-, -, hnumber, -, -, -, -, hdependents⟩ := ofDeclarations_reads EdgeStack declarations
  have hcount : g.edgeCount = 3 := by decide +kernel
  exact ⟨by decide +kernel, by decide +kernel, hcount, by decide +kernel,
    hnumber [.dependency "b" "a"] "a" _ rfl, hcount.symm.trans hdependents⟩

end IndexedGraph

end BindingGraph
