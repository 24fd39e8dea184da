import BindingGraph.Proofs.Engine.Answers
import BindingGraph.Proofs.Name.Closest
import Mathlib.Data.List.Perm.Basic

/-!
# The order of declarations

Two sequences of declarations that mention the same names and declare the same edges give graphs
that differ in the order of their nodes, dependencies and dependents and in nothing else
(`DependencyGraph.reordered_ofDeclarations`). Along two such graphs the recursion lists the same
paths in different orders (`Graph.Reordered.perm_pathsFrom`), and the same names are offered for one
that is unknown. So the order of declarations shows in the order of answers alone, and in which path
is given where one is enough (`Engine.execute_any_order`).
-/

namespace BindingGraph

/-! ## Reordered graphs -/

/-- Two graphs with the same nodes and edges, each in an order of its own. -/
structure Graph.Reordered (g h : Graph) : Prop where
  nodes : g.nodes.Perm h.nodes
  dependencies : ∀ name, (g.dependencies name).Perm (h.dependencies name)
  dependents : ∀ name, (g.dependents name).Perm (h.dependents name)

namespace DependencyGraph

theorem reordered_view {g h : DependencyGraph} (hnodes : g.nodes.Perm h.nodes)
    (hedges : g.edges.Perm h.edges) : g.view.Reordered h.view where
  nodes := hnodes
  dependencies := by
    intro name
    exact (hedges.filter _).map _
  dependents := by
    intro name
    have horigins : (g.origins name).Perm (h.origins name) := (hedges.filter _).map _
    exact ((g.perm_dependents name).trans horigins).trans (h.perm_dependents name).symm

theorem reordered_ofDeclarations {declarations others : List Declaration}
    (hnames : ∀ name, name ∈ declarations.flatMap Declaration.mentions ↔
      name ∈ others.flatMap Declaration.mentions)
    (hedges : ∀ edge, edge ∈ declarations.flatMap Declaration.edges ↔
      edge ∈ others.flatMap Declaration.edges) :
    (ofDeclarations declarations).view.Reordered (ofDeclarations others).view := by
  apply reordered_view
  · refine (List.perm_ext_iff_of_nodup (nodes_nodup _) (nodes_nodup _)).mpr ?_
    intro name
    rw [nodes_ofDeclarations, nodes_ofDeclarations, mem_foldl_insertEnd_iff,
      mem_foldl_insertEnd_iff, hnames]
  · refine (List.perm_ext_iff_of_nodup (edges_nodup _) (edges_nodup _)).mpr ?_
    intro edge
    rw [edges_ofDeclarations, edges_ofDeclarations, mem_foldl_insertEnd_iff,
      mem_foldl_insertEnd_iff, hedges]

end DependencyGraph

namespace Graph

variable {g h : Graph}

theorem Reordered.perm_pathsFrom (hreordered : g.Reordered h) (target : String)
    (visited : List String) (name : String) :
    (g.pathsFrom target visited name).Perm (h.pathsFrom target visited name) := by
  induction visited, name using pathsFrom.induct g target with
  | case1 visited => rw [pathsFrom_target, pathsFrom_target]
  | case2 visited name hname ih =>
    rw [pathsFrom_eq, if_neg hname, h.pathsFrom_eq, if_neg hname]
    refine (hreordered.dependencies name).flatMap ?_
    intro next hnext
    split
    · exact .refl _
    · rename_i hnew
      exact ih next hnext hnew

end Graph

/-! ## Answers over reordered graphs -/

/-- Two answers to one query that differ in their order only. Where one path is enough it may be
another one, but there is one in both answers or in neither. -/
def Query.Alike (g : Graph) (query : Query) (answer other : List String) : Prop :=
  match query with
  | .somePath source target =>
    (answer = [] ∧ other = []) ∨ ∃ path path' : Path, answer = [path.text] ∧ other = [path'.text] ∧
      g.IsSimplePath source target path.nodes ∧ g.IsSimplePath source target path'.nodes
  | _ => answer.Perm other

theorem Graph.Reordered.alike_answer {g h : Graph} (hreordered : g.Reordered h) (query : Query) :
    query.Alike g (g.answer query) (h.answer query) := by
  cases query with
  | dependencies node => exact hreordered.dependencies node
  | dependents node => exact hreordered.dependents node
  | member node => exact .refl _
  | allPaths source target => exact ((hreordered.perm_pathsFrom target [] source).map _).map _
  | somePath source target =>
    have hperm := hreordered.perm_pathsFrom target [] source
    simp only [Query.Alike, Graph.answer]
    cases hpaths : g.pathsFrom target [] source with
    | nil =>
      rw [hpaths] at hperm
      rw [← hperm.nil_eq]
      exact .inl ⟨rfl, rfl⟩
    | cons nodes rest =>
      cases hpaths' : h.pathsFrom target [] source with
      | nil =>
        rw [hpaths, hpaths'] at hperm
        exact absurd hperm.eq_nil (List.cons_ne_nil _ _)
      | cons nodes' rest' =>
        have hmem : nodes ∈ g.pathsFrom target [] source := by
          rw [hpaths]
          exact List.mem_cons_self
        have hmem' : nodes' ∈ g.pathsFrom target [] source := by
          rw [hperm.mem_iff, hpaths']
          exact List.mem_cons_self
        exact .inr ⟨⟨nodes⟩, ⟨nodes'⟩, rfl, rfl, Graph.mem_pathsFrom_nil_iff.mp hmem,
          Graph.mem_pathsFrom_nil_iff.mp hmem'⟩

namespace Engine

theorem execute_reordered {e e' : Engine} (hreordered : e.graph.Reordered e'.graph)
    (hsettings : e.settings = e'.settings) (hcap : e.settings.maxSuggestions = none)
    (hwatch : e.watch.Silent) (hwatch' : e'.watch.Silent) (query : Query) :
    (∃ answer other, e.execute query = .ok answer ∧ e'.execute query = .ok other ∧
      query.Alike e.graph answer other) ∨
    ∃ name suggestions others, e.execute query = .error (.unknownName name suggestions) ∧
      e'.execute query = .error (.unknownName name others) ∧ suggestions.Perm others := by
  have hfind : query.parameters.find? (· ∉ e'.graph.nodes) =
      query.parameters.find? (· ∉ e.graph.nodes) := by
    simp only [hreordered.nodes.mem_iff]
  rw [execute_eq query hwatch, execute_eq query hwatch', resolveAll_eq, resolveAll_eq, hfind,
    ← hsettings, hcap]
  cases query.parameters.find? (· ∉ e.graph.nodes) with
  | none => exact .inl ⟨_, _, rfl, rfl, hreordered.alike_answer query⟩
  | some name => exact .inr ⟨name, _, _, rfl, rfl, Name.perm_closest hreordered.nodes name _⟩

/-- **The order of declarations.** If two sequences of declarations mention the same names and
declare the same edges, a query is answered over both graphs, with answers that differ in their
order only, or it fails over both because of the same unknown name, with suggestions that differ in
their order only. -/
theorem execute_any_order (declarations others : List DependencyGraph.Declaration)
    (hnames : ∀ name, name ∈ declarations.flatMap DependencyGraph.Declaration.mentions ↔
      name ∈ others.flatMap DependencyGraph.Declaration.mentions)
    (hedges : ∀ edge, edge ∈ declarations.flatMap DependencyGraph.Declaration.edges ↔
      edge ∈ others.flatMap DependencyGraph.Declaration.edges)
    (settings : Settings) (htimeout : settings.timeoutMillis = none)
    (hcap : settings.maxSuggestions = none) (query : Query) :
    let e : Engine := { graph := (DependencyGraph.ofDeclarations declarations).view, settings }
    let e' : Engine := { graph := (DependencyGraph.ofDeclarations others).view, settings }
    (∃ answer other, e.execute query = .ok answer ∧ e'.execute query = .ok other ∧
      query.Alike e.graph answer other) ∨
    ∃ name suggestions suggestions', e.execute query = .error (.unknownName name suggestions) ∧
      e'.execute query = .error (.unknownName name suggestions') ∧
      suggestions.Perm suggestions' := by
  intro e e'
  have hwatch : e.watch.Silent := Settings.silent_deadline htimeout
  have hwatch' : e'.watch.Silent := Settings.silent_deadline htimeout
  have hreordered : e.graph.Reordered e'.graph :=
    DependencyGraph.reordered_ofDeclarations hnames hedges
  have hsettings : e.settings = e'.settings := rfl
  exact execute_reordered hreordered hsettings hcap hwatch hwatch' query

/-- Over the tangled graph and its declarations in another order, the two paths change places. -/
theorem execute_any_order_tangled :
    let declarations : List DependencyGraph.Declaration :=
      [.dependency "a" "a", .binding "a" ["b", "c"], .binding "b" ["c", "a"], .dependency "c" "b"]
    let others : List DependencyGraph.Declaration :=
      [.binding "c" ["b"], .node "b", .dependency "b" "a", .binding "a" ["c", "b", "c", "a"],
        .dependency "b" "c"]
    let e : Engine := { graph := (DependencyGraph.ofDeclarations declarations).view }
    let e' : Engine := { graph := (DependencyGraph.ofDeclarations others).view }
    let query : Query := .allPaths "a" "c"
    (∀ name, name ∈ declarations.flatMap DependencyGraph.Declaration.mentions ↔
      name ∈ others.flatMap DependencyGraph.Declaration.mentions) ∧
    (∀ edge, edge ∈ declarations.flatMap DependencyGraph.Declaration.edges ↔
      edge ∈ others.flatMap DependencyGraph.Declaration.edges) ∧
    e.execute query = .ok ["a -> b -> c", "a -> c"] ∧
    e'.execute query = .ok ["a -> c", "a -> b -> c"] ∧
    query.Alike e.graph ["a -> b -> c", "a -> c"] ["a -> c", "a -> b -> c"] := by
  intro declarations others e e' query
  have hnames : ∀ name, name ∈ declarations.flatMap DependencyGraph.Declaration.mentions ↔
      name ∈ others.flatMap DependencyGraph.Declaration.mentions := by
    intro name
    simp [declarations, others, DependencyGraph.Declaration.mentions]
    grind
  have hedges : ∀ edge, edge ∈ declarations.flatMap DependencyGraph.Declaration.edges ↔
      edge ∈ others.flatMap DependencyGraph.Declaration.edges := by
    intro edge
    simp [declarations, others, DependencyGraph.Declaration.edges]
    grind
  have hexecute : e.execute query = .ok ["a -> b -> c", "a -> c"] := by decide +kernel
  have hexecute' : e'.execute query = .ok ["a -> c", "a -> b -> c"] := by decide +kernel
  refine ⟨hnames, hedges, hexecute, hexecute', ?_⟩
  rcases execute_any_order declarations others hnames hedges {} rfl rfl query with
    ⟨answer, other, hanswer, hother, halike⟩ | ⟨name, suggestions, -, herror, -, -⟩
  · obtain rfl := Except.ok.inj (hexecute.symm.trans hanswer)
    obtain rfl := Except.ok.inj (hexecute'.symm.trans hother)
    exact halike
  · cases hexecute.symm.trans herror

end Engine

end BindingGraph
