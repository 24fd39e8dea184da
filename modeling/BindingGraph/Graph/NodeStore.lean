/-!
# Stores of numbered nodes

A node store holds named nodes, which it numbers in the order in which they are put in, and edges
between these numbers. What a graph relies on is said in `LawfulNodeStore`: a node keeps its number,
and the targets of a node come latest first. `EdgeStack` is the plainest store of this kind.
-/

namespace BindingGraph

/-- A store of named nodes, which go by their numbers, and of edges between them. A new node comes
with its number, and an edge is put in whether there is one already or not. -/
class NodeStore (σ : Type) where
  empty : σ
  nodeCount : σ → Nat
  edgeCount : σ → Nat
  nameAt : σ → Nat → String
  addNode : σ → String → Nat × σ
  addEdge : σ → Nat → Nat → σ
  hasEdge : σ → Nat → Nat → Bool
  targets : σ → Nat → List Nat
  sources : σ → Nat → List Nat

open NodeStore in
/-- Numbers count up and stay as they are; the targets of a node come latest first, its sources in
any order. -/
class LawfulNodeStore (σ : Type) [NodeStore σ] : Prop where
  nodeCount_empty : nodeCount (empty : σ) = 0
  edgeCount_empty : edgeCount (empty : σ) = 0
  targets_empty : ∀ node, targets (empty : σ) node = []
  sources_empty : ∀ node, sources (empty : σ) node = []
  addNode_number : ∀ (s : σ) name, (addNode s name).1 = nodeCount s
  nodeCount_addNode : ∀ (s : σ) name, nodeCount (addNode s name).2 = nodeCount s + 1
  edgeCount_addNode : ∀ (s : σ) name, edgeCount (addNode s name).2 = edgeCount s
  nameAt_addNode_new : ∀ (s : σ) name, nameAt (addNode s name).2 (nodeCount s) = name
  nameAt_addNode_old : ∀ (s : σ) name node, node < nodeCount s →
    nameAt (addNode s name).2 node = nameAt s node
  targets_addNode : ∀ (s : σ) name node, targets (addNode s name).2 node = targets s node
  sources_addNode : ∀ (s : σ) name node, sources (addNode s name).2 node = sources s node
  nodeCount_addEdge : ∀ (s : σ) source target, source < nodeCount s → target < nodeCount s →
    nodeCount (addEdge s source target) = nodeCount s
  edgeCount_addEdge : ∀ (s : σ) source target, source < nodeCount s → target < nodeCount s →
    edgeCount (addEdge s source target) = edgeCount s + 1
  nameAt_addEdge : ∀ (s : σ) source target node, source < nodeCount s → target < nodeCount s →
    nameAt (addEdge s source target) node = nameAt s node
  targets_addEdge : ∀ (s : σ) source target node, source < nodeCount s → target < nodeCount s →
    targets (addEdge s source target) node =
      if node = source then target :: targets s node else targets s node
  sources_addEdge : ∀ (s : σ) source target node, source < nodeCount s → target < nodeCount s →
    (sources (addEdge s source target) node).Perm
      (if node = target then source :: sources s node else sources s node)
  hasEdge_iff : ∀ (s : σ) source target, hasEdge s source target ↔ target ∈ targets s source

/-! ## A stack of edges -/

/-- The names of the nodes in order, and the edges, latest first. -/
structure EdgeStack where
  names : List String := []
  edges : List (Nat × Nat) := []

instance : NodeStore EdgeStack where
  empty := {}
  nodeCount s := s.names.length
  edgeCount s := s.edges.length
  nameAt s node := s.names.getD node ""
  addNode s name := (s.names.length, { s with names := s.names ++ [name] })
  addEdge s source target := { s with edges := (source, target) :: s.edges }
  hasEdge s source target := s.edges.contains (source, target)
  targets s node := (s.edges.filter (·.1 == node)).map (·.2)
  sources s node := (s.edges.filter (·.2 == node)).map (·.1)

instance : LawfulNodeStore EdgeStack where
  nodeCount_empty := rfl
  edgeCount_empty := rfl
  targets_empty _ := rfl
  sources_empty _ := rfl
  addNode_number _ _ := rfl
  nodeCount_addNode _ _ := List.length_append
  edgeCount_addNode _ _ := rfl
  nameAt_addNode_new s name := by simp [NodeStore.nameAt, NodeStore.addNode, NodeStore.nodeCount]
  nameAt_addNode_old s name node h := by
    have h : node < s.names.length := h
    simp [NodeStore.nameAt, NodeStore.addNode, List.getElem?_append_left h]
  targets_addNode _ _ _ := rfl
  sources_addNode _ _ _ := rfl
  nodeCount_addEdge _ _ _ _ _ := rfl
  edgeCount_addEdge _ _ _ _ _ := rfl
  nameAt_addEdge _ _ _ _ _ _ := rfl
  targets_addEdge s source target node _ _ := by
    by_cases h : node = source
    · simp [NodeStore.targets, NodeStore.addEdge, h]
    · simp [NodeStore.targets, NodeStore.addEdge, h, Ne.symm h]
  sources_addEdge s source target node _ _ := by
    by_cases h : node = target
    · simp [NodeStore.sources, NodeStore.addEdge, h]
    · simp [NodeStore.sources, NodeStore.addEdge, h, Ne.symm h]
  hasEdge_iff s source target := by simp [NodeStore.hasEdge, NodeStore.targets]

end BindingGraph
