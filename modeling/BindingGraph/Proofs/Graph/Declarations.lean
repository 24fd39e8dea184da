import BindingGraph.Graph.Dependency
import Mathlib.Algebra.Ring.Nat
import Mathlib.Data.List.Nodup

/-!
# What declarations leave behind

Every declaration appends what is new at the end and changes nothing else, so the nodes of a graph
are the names that its declarations mention, and its edges the edges that they declare, each at the
place of its first occurrence (`nodes_ofDeclarations`, `edges_ofDeclarations`). Both ends of what a
declaration does are one operation on lists, `insertEnd`.
-/

namespace BindingGraph

/-- Put an element at the end of a list that does not hold it yet. -/
def insertEnd {α : Type} [DecidableEq α] (xs : List α) (x : α) : List α :=
  if x ∈ xs then xs else xs ++ [x]

section InsertEnd

variable {α : Type} [DecidableEq α] {xs ys : List α}

/-- What is put in is what was not there, each element where it first occurs. -/
theorem foldl_insertEnd_eq (xs ys : List α) :
    ys.foldl insertEnd xs = xs ++ (ys.filter (· ∉ xs)).eraseDups := by
  induction ys generalizing xs with
  | nil => simp
  | cons y ys ih =>
    rw [List.foldl_cons, ih]
    unfold insertEnd
    by_cases hy : y ∈ xs
    · simp [hy]
    · have hrest : ys.filter (· ∉ xs ++ [y]) = (ys.filter (· ∉ xs)).filter fun z => !z == y := by
        rw [List.filter_filter]
        apply List.filter_congr
        intro z _
        by_cases hz : z = y <;> simp [hz]
      rw [if_neg hy, hrest, List.filter_cons_of_pos (by simpa using hy), List.eraseDups_cons]
      simp

theorem foldl_insertEnd_nil (ys : List α) : ys.foldl insertEnd [] = ys.eraseDups := by
  simp [foldl_insertEnd_eq]

theorem mem_foldl_insertEnd_iff {x : α} : x ∈ ys.foldl insertEnd xs ↔ x ∈ xs ∨ x ∈ ys := by
  rw [foldl_insertEnd_eq, List.mem_append, List.mem_eraseDups, List.mem_filter]
  by_cases hx : x ∈ xs <;> simp [hx]

/-- Elements of which each is new are appended as they stand. -/
theorem foldl_insertEnd_of_nodup (h : (xs ++ ys).Nodup) : ys.foldl insertEnd xs = xs ++ ys := by
  induction ys generalizing xs with
  | nil => simp
  | cons y ys ih =>
    have hsplit : xs ++ y :: ys = (xs ++ [y]) ++ ys := by simp
    have hy : y ∉ xs := fun hmem =>
      (List.nodup_append.mp h).2.2 y hmem y List.mem_cons_self rfl
    rw [hsplit] at h ⊢
    rw [List.foldl_cons, insertEnd, if_neg hy]
    exact ih h

/-- Elements that a front part does not hold leave it alone. -/
theorem foldl_insertEnd_append {zs : List α} (h : ∀ y ∈ ys, y ∉ xs) :
    ys.foldl insertEnd (xs ++ zs) = xs ++ ys.foldl insertEnd zs := by
  induction ys generalizing zs with
  | nil => rfl
  | cons y ys ih =>
    have hy : insertEnd (xs ++ zs) y = xs ++ insertEnd zs y := by
      unfold insertEnd
      simp only [List.mem_append, h y List.mem_cons_self, false_or]
      split
      · rfl
      · rw [List.append_assoc]
    rw [List.foldl_cons, hy, List.foldl_cons]
    exact ih fun x hx => h x (List.mem_cons_of_mem _ hx)

theorem foldl_insertEnd_map {β : Type} [DecidableEq β] {f : α → β} (hf : Function.Injective f)
    (xs ys : List α) : (ys.map f).foldl insertEnd (xs.map f) = (ys.foldl insertEnd xs).map f := by
  induction ys generalizing xs with
  | nil => rfl
  | cons y ys ih =>
    have hy : insertEnd (xs.map f) (f y) = (insertEnd xs y).map f := by
      unfold insertEnd
      simp only [List.mem_map_of_injective hf]
      split
      · rfl
      · rw [List.map_append, List.map_singleton]
    rw [List.map_cons, List.foldl_cons, List.foldl_cons, hy, ih]

/-- If each step puts what it adds at the end, a run puts all that it adds at the end. -/
theorem view_foldl {γ σ δ : Type} [DecidableEq γ] {step : σ → δ → σ} {view : σ → List γ}
    {adds : δ → List γ} (hstep : ∀ s d, view (step s d) = (adds d).foldl insertEnd (view s)) (s : σ)
    (ds : List δ) : view (ds.foldl step s) = (ds.flatMap adds).foldl insertEnd (view s) := by
  induction ds generalizing s with
  | nil => rfl
  | cons d ds ih => rw [List.foldl_cons, ih, hstep, List.flatMap_cons, List.foldl_append]

end InsertEnd

namespace DependencyGraph

/-! ## Nodes and edges -/

/-- The names that a declaration mentions, in order. -/
def Declaration.mentions : Declaration → List String
  | .node name => [name]
  | .dependency source target => [source, target]
  | .binding name dependencies => name :: dependencies.flatMap fun dependency => [name, dependency]

/-- The edges that a declaration declares, in order. -/
def Declaration.edges : Declaration → List (String × String)
  | .node _ => []
  | .dependency source target => [(source, target)]
  | .binding name dependencies => dependencies.map fun dependency => (name, dependency)

theorem nodes_addNode (g : DependencyGraph) (name : String) :
    (g.addNode name).nodes = insertEnd g.nodes name := by
  unfold addNode insertEnd
  split <;> rfl

theorem edges_addNode (g : DependencyGraph) (name : String) : (g.addNode name).edges = g.edges := by
  unfold addNode
  split <;> rfl

theorem nodes_addEdge (g : DependencyGraph) (source target : String)
    (h : source ∈ g.nodes ∧ target ∈ g.nodes) : (g.addEdge source target h).nodes = g.nodes := by
  unfold addEdge
  split <;> rfl

theorem edges_addEdge (g : DependencyGraph) (source target : String)
    (h : source ∈ g.nodes ∧ target ∈ g.nodes) :
    (g.addEdge source target h).edges = insertEnd g.edges (source, target) := by
  unfold addEdge insertEnd
  split <;> rfl

theorem nodes_addDependency (g : DependencyGraph) (source target : String) :
    (g.addDependency source target).nodes = [source, target].foldl insertEnd g.nodes := by
  rw [addDependency, nodes_addEdge, nodes_addNode, nodes_addNode]
  rfl

theorem edges_addDependency (g : DependencyGraph) (source target : String) :
    (g.addDependency source target).edges = insertEnd g.edges (source, target) := by
  rw [addDependency, edges_addEdge, edges_addNode, edges_addNode]

theorem nodes_declare (g : DependencyGraph) (declaration : Declaration) :
    (g.declare declaration).nodes = declaration.mentions.foldl insertEnd g.nodes := by
  cases declaration with
  | node name => exact nodes_addNode g name
  | dependency source target => exact nodes_addDependency g source target
  | binding name dependencies =>
    show (dependencies.foldl _ (g.addNode name)).nodes =
      (name :: dependencies.flatMap _).foldl insertEnd g.nodes
    rw [List.foldl_cons, ← nodes_addNode]
    exact view_foldl (fun g dependency => nodes_addDependency g name dependency) _ dependencies

theorem edges_declare (g : DependencyGraph) (declaration : Declaration) :
    (g.declare declaration).edges = declaration.edges.foldl insertEnd g.edges := by
  cases declaration with
  | node name => exact edges_addNode g name
  | dependency source target => exact edges_addDependency g source target
  | binding name dependencies =>
    show (dependencies.foldl _ (g.addNode name)).edges =
      (dependencies.map _).foldl insertEnd g.edges
    rw [← edges_addNode g name, List.map_eq_flatMap]
    exact view_foldl (fun g dependency => edges_addDependency g name dependency) _ dependencies

/-- The nodes are the names that the declarations mention, each where it first occurs. -/
theorem nodes_ofDeclarations (declarations : List Declaration) :
    (ofDeclarations declarations).nodes =
      (declarations.flatMap Declaration.mentions).foldl insertEnd [] :=
  view_foldl nodes_declare empty declarations

/-- The edges are those that the declarations declare, each where it first occurs. -/
theorem edges_ofDeclarations (declarations : List Declaration) :
    (ofDeclarations declarations).edges =
      (declarations.flatMap Declaration.edges).foldl insertEnd [] :=
  view_foldl edges_declare empty declarations

/-! ## Dependencies -/

variable {g : DependencyGraph} {name : String}

theorem mem_dependencies_iff {dependency : String} :
    dependency ∈ g.dependencies name ↔ (name, dependency) ∈ g.edges := by
  unfold dependencies
  constructor
  · intro h
    obtain ⟨⟨source, target⟩, hedge, rfl⟩ := List.mem_map.mp h
    obtain ⟨hedge, hsource⟩ := List.mem_filter.mp hedge
    exact beq_iff_eq.mp hsource ▸ hedge
  · intro h
    exact List.mem_map.mpr ⟨(name, dependency), List.mem_filter.mpr ⟨h, beq_self_eq_true name⟩, rfl⟩

/-- Every dependency is a node. -/
theorem mem_nodes_of_mem_dependencies {dependency : String}
    (h : dependency ∈ g.dependencies name) : dependency ∈ g.nodes :=
  (g.edges_declared _ (mem_dependencies_iff.mp h)).2

/-- No dependency is listed twice. -/
theorem nodup_dependencies (g : DependencyGraph) (name : String) : (g.dependencies name).Nodup := by
  refine List.Nodup.map_on ?_ (g.edges_nodup.filter _)
  rintro ⟨source, target⟩ hedge ⟨source', target'⟩ hedge' htarget
  have hsource := beq_iff_eq.mp (List.mem_filter.mp hedge).2
  have hsource' := beq_iff_eq.mp (List.mem_filter.mp hedge').2
  exact Prod.ext (hsource.trans hsource'.symm) htarget

/-! ## Dependents -/

/-- The sources of the edges into a name, in insertion order. -/
def origins (g : DependencyGraph) (name : String) : List String :=
  (g.edges.filter (·.2 == name)).map (·.1)

theorem mem_origins_iff {source : String} : source ∈ g.origins name ↔ (source, name) ∈ g.edges := by
  simp [origins]

/-- Every source of an edge is a node. -/
theorem mem_nodes_of_mem_origins {source : String} (h : source ∈ g.origins name) :
    source ∈ g.nodes :=
  (g.edges_declared _ (mem_origins_iff.mp h)).1

/-- The dependents of a name are the sources of the edges into it, in another order. -/
theorem perm_dependents (g : DependencyGraph) (name : String) :
    (g.dependents name).Perm (g.origins name) :=
  List.mergeSort_perm _ _

theorem mem_dependents_iff {source : String} :
    source ∈ g.dependents name ↔ (source, name) ∈ g.edges :=
  (g.perm_dependents name).mem_iff.trans mem_origins_iff

/-- Dependents come in declaration order. -/
theorem pairwise_dependents (g : DependencyGraph) (name : String) :
    (g.dependents name).Pairwise fun a b => g.nodes.idxOf a ≤ g.nodes.idxOf b := by
  have hsorted : (g.dependents name).Pairwise fun a b =>
      decide (g.nodes.idxOf a ≤ g.nodes.idxOf b) = true :=
    List.pairwise_mergeSort (fun a b c => by simpa using Nat.le_trans)
      (fun a b => by simpa using Nat.le_total _ _) _
  exact hsorted.imp fun h => of_decide_eq_true h

/-- No dependent is listed twice. -/
theorem nodup_dependents (g : DependencyGraph) (name : String) : (g.dependents name).Nodup := by
  refine (g.perm_dependents name).nodup_iff.mpr (List.Nodup.map_on ?_ (g.edges_nodup.filter _))
  rintro ⟨source, target⟩ hedge ⟨source', target'⟩ hedge' hsource
  have htarget := beq_iff_eq.mp (List.mem_filter.mp hedge).2
  have htarget' := beq_iff_eq.mp (List.mem_filter.mp hedge').2
  exact Prod.ext hsource (htarget.trans htarget'.symm)

/-! ## Counting edges -/

/-- Each element is counted once, at its key. -/
theorem sum_length_filter {α : Type} (key : α → String) {nodes : List String}
    (hnodes : nodes.Nodup) (xs : List α) (h : ∀ x ∈ xs, key x ∈ nodes) :
    (nodes.map fun node => (xs.filter (key · == node)).length).sum = xs.length := by
  induction nodes generalizing xs with
  | nil =>
    have hnil : xs = [] := List.eq_nil_iff_forall_not_mem.mpr fun x hx => absurd (h x hx) (by simp)
    rw [hnil]
    rfl
  | cons node nodes ih =>
    obtain ⟨hnode, hnodes⟩ := List.nodup_cons.mp hnodes
    let others := xs.filter fun x => !(key x == node)
    have hothers : ∀ x ∈ others, key x ∈ nodes := by
      intro x hx
      obtain ⟨hx, hkey⟩ := List.mem_filter.mp hx
      rcases List.mem_cons.mp (h x hx) with heq | hmem
      · simp [heq] at hkey
      · exact hmem
    -- The other nodes do not see the elements of the first.
    have hrest : (nodes.map fun other => (xs.filter (key · == other)).length) =
        nodes.map fun other => (others.filter (key · == other)).length := by
      apply List.map_congr_left
      intro other hother
      rw [List.filter_filter]
      congr 1
      apply List.filter_congr
      intro x _
      by_cases hkey : key x = other
      · have hne : other ≠ node := fun heq => hnode (heq ▸ hother)
        simp [hkey, hne]
      · simp [hkey]
    rw [List.map_cons, List.sum_cons, hrest, ih hnodes others hothers]
    exact (List.length_eq_length_filter_add _).symm

theorem edgeCount_eq_sum_dependencies (g : DependencyGraph) :
    g.edgeCount = (g.nodes.map fun node => (g.dependencies node).length).sum := by
  simp only [dependencies, List.length_map]
  exact (sum_length_filter (·.1) g.nodes_nodup g.edges fun edge hedge =>
    (g.edges_declared edge hedge).1).symm

theorem edgeCount_eq_sum_dependents (g : DependencyGraph) :
    g.edgeCount = (g.nodes.map fun node => (g.dependents node).length).sum := by
  simp only [(g.perm_dependents _).length_eq, origins, List.length_map]
  exact (sum_length_filter (·.2) g.nodes_nodup g.edges fun edge hedge =>
    (g.edges_declared edge hedge).2).symm

end DependencyGraph

end BindingGraph
