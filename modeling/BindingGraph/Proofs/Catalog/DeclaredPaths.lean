import BindingGraph.Proofs.Catalog.Outcomes
import BindingGraph.Proofs.Record.Accepted

/-!
# Paths, from the text of the files

Files of records are asked for all paths between two names. What the files declare is said of their
lines alone (`Record.Declares`), and the answer is a group of paths for each file, the
repetition-free ways along the declared pairs; it fails where there is none and some file does not
have both names (`Catalog.execute_allPaths_ofFiles`). The layers in between meet at
`Catalog.pathsIn`: an engine answers with the texts of these paths (`Catalog.results_allPaths`), and
the paths are those that the lines declare (`Catalog.isGroup_pathsIn`).
-/

namespace BindingGraph

/-! ## What lines declare -/

/-- An accepted record has the first name as its key, and the second is one of its dependencies. -/
def Record.Declares (lines : List String) (name dependency : String) : Prop :=
  ∃ record ∈ accepted lines, record.key = name ∧ dependency ∈ record.dependencies

open Record

theorem LoadedGraph.mem_dependencies_ofLines_iff {lines : List String} {name dependency : String} :
    dependency ∈ (ofLines lines).graph.dependencies name ↔ Declares lines name dependency := by
  rw [dependencies_ofLines, List.mem_eraseDups, mem_dependenciesOf_iff]
  rfl

/-- A way from one name to another along declared pairs that repeats no name. -/
structure Record.IsDeclaredPath (lines : List String) (source target : String)
    (nodes : List String) : Prop where
  head : nodes.head? = some source
  last : nodes.getLast? = some target
  chain : nodes.IsChain (Declares lines)
  nodup : nodes.Nodup

theorem LoadedGraph.isSimplePath_ofLines_iff {lines : List String} {source target : String}
    {nodes : List String} :
    (ofLines lines).graph.view.IsSimplePath source target nodes ↔
      IsDeclaredPath lines source target nodes := by
  have hchain : (ofLines lines).graph.view.IsWalk nodes ↔ nodes.IsChain (Declares lines) := by
    rw [Graph.isWalk_iff_isChain]
    exact List.IsChain.iff fun _ _ => mem_dependencies_ofLines_iff
  constructor
  · intro h
    exact ⟨h.head, h.last, hchain.mp h.walk, h.nodup⟩
  · intro h
    exact ⟨h.head, h.last, hchain.mpr h.chain, h.nodup⟩

namespace Catalog

variable {c : Catalog} {source target : String}

/-! ## What graphs answer -/

/-- Both names are nodes of the graph. -/
def HasBoth (source target : String) (graph : DependencyGraph) : Prop :=
  source ∈ graph.nodes ∧ target ∈ graph.nodes

instance (source target : String) (graph : DependencyGraph) :
    Decidable (HasBoth source target graph) :=
  inferInstanceAs (Decidable (_ ∧ _))

/-- The paths that a graph contributes: none if it does not have both names. -/
def pathsIn (source target : String) (graph : DependencyGraph) : List Path :=
  if HasBoth source target graph then (graph.view.pathsFrom target [] source).map Path.mk else []

theorem silent_watch (h : c.settings.timeoutMillis = none) (named : NamedGraph) :
    (c.engine named).watch.Silent :=
  Settings.silent_deadline h

theorem execute_of_hasBoth (h : c.settings.timeoutMillis = none) {named : NamedGraph}
    (hboth : HasBoth source target named.graph) :
    (c.engine named).execute (.allPaths source target) =
      .ok ((pathsIn source target named.graph).map Path.text) := by
  rw [Engine.execute_allPaths_eq hboth.1 hboth.2 (silent_watch h named), pathsIn, if_pos hboth]
  rfl

theorem execute_of_not_hasBoth {named : NamedGraph} (hboth : ¬ HasBoth source target named.graph) :
    ∃ error, error.IsUnknownName ∧
      (c.engine named).execute (.allPaths source target) = .error error := by
  by_cases hsource : source ∈ named.graph.nodes
  · have htarget : target ∉ named.graph.nodes := fun htarget => hboth ⟨hsource, htarget⟩
    exact Engine.execute_of_not_mem (.allPaths source target) (List.mem_pair.mpr (.inr rfl)) htarget
  · exact Engine.execute_of_not_mem (.allPaths source target) (List.mem_pair.mpr (.inl rfl)) hsource

/-- The results are the paths of all graphs, in words. -/
theorem results_allPaths (h : c.settings.timeoutMillis = none) (source target : String)
    (graphs : List NamedGraph) :
    results (c.answers (.allPaths source target) graphs) =
      (graphs.flatMap fun named => pathsIn source target named.graph).map Path.text := by
  induction graphs with
  | nil => rfl
  | cons named graphs ih =>
    have hfirst : results (c.answers (.allPaths source target) (named :: graphs)) =
        results [(c.engine named).execute (.allPaths source target)] ++
          results (c.answers (.allPaths source target) graphs) := by
      simp [results, answers]
    rw [hfirst, ih, List.flatMap_cons, List.map_append]
    congr 1
    by_cases hboth : HasBoth source target named.graph
    · simp [execute_of_hasBoth h hboth, results]
    · obtain ⟨error, -, hexecute⟩ := execute_of_not_hasBoth (c := c) hboth
      simp [hexecute, results, pathsIn, hboth]

/-- A graph fails exactly if it does not have both names, and then because a name is unknown. -/
theorem mem_failures_allPaths (h : c.settings.timeoutMillis = none) {graphs : List NamedGraph}
    {error : QueryError} (herror : error ∈ failures (c.answers (.allPaths source target) graphs)) :
    error.isAborted = false ∧ ∃ named ∈ graphs, ¬ HasBoth source target named.graph := by
  obtain ⟨named, hnamed, hexecute⟩ := List.mem_map.mp (mem_failures_iff.mp herror)
  have hboth : ¬ HasBoth source target named.graph := by
    intro hboth
    rw [execute_of_hasBoth h hboth] at hexecute
    cases hexecute
  obtain ⟨failure, ⟨name, suggestions, rfl⟩, hfailure⟩ := execute_of_not_hasBoth (c := c) hboth
  rw [hfailure] at hexecute
  cases hexecute
  exact ⟨rfl, named, hnamed, hboth⟩

theorem failures_allPaths_ne_nil_iff (h : c.settings.timeoutMillis = none)
    {graphs : List NamedGraph} :
    failures (c.answers (.allPaths source target) graphs) ≠ [] ↔
      ∃ named ∈ graphs, ¬ HasBoth source target named.graph := by
  constructor
  · intro hne
    obtain ⟨error, herror⟩ := List.exists_mem_of_ne_nil _ hne
    exact (mem_failures_allPaths h herror).2
  · rintro ⟨named, hnamed, hboth⟩
    obtain ⟨error, -, hexecute⟩ := execute_of_not_hasBoth (c := c) hboth
    have hmem : .error error ∈ c.answers (.allPaths source target) graphs :=
      hexecute ▸ List.mem_map_of_mem hnamed
    exact List.ne_nil_of_mem (mem_failures_iff.mpr hmem)

/-! ## What files answer -/

/-- The catalog of the graphs of files, each given by its name and its lines. -/
def ofFiles (files : List (String × List String)) (settings : Settings) : Catalog where
  graphs := files.map fun (name, lines) => ⟨name, (LoadedGraph.ofLines lines).graph⟩
  settings := settings

/-- Every declared path between two names once, if both are nodes of the graph of the lines. -/
def IsGroup (source target : String) (lines : List String) (group : List Path) : Prop :=
  if HasBoth source target (LoadedGraph.ofLines lines).graph then
    group.Nodup ∧ ∀ path, path ∈ group ↔ IsDeclaredPath lines source target path.nodes
  else group = []

theorem isGroup_pathsIn (source target : String) (lines : List String) :
    IsGroup source target lines (pathsIn source target (LoadedGraph.ofLines lines).graph) := by
  rw [IsGroup, pathsIn]
  split
  · constructor
    · refine List.Nodup.map (fun _ _ heq => Path.mk.inj heq) (Graph.nodup_pathsFrom ?_)
      exact DependencyGraph.nodup_dependencies _
    · intro path
      rw [Path.mem_map_mk_iff, Graph.mem_pathsFrom_nil_iff, LoadedGraph.isSimplePath_ofLines_iff]
  · rfl

/-- **From text to answer.** Without a time limit, files of any lines are asked for all paths
between two names: the answer shows one group of paths after the other, and there is none exactly if
all groups are empty and some file does not have both names. -/
theorem execute_allPaths_ofFiles (files : List (String × List String)) (settings : Settings)
    (h : settings.timeoutMillis = none) (source target : String) :
    ∃ groups,
      List.Forall₂ (fun file group => IsGroup source target file.2 group) files groups ∧
      (∀ found, (ofFiles files settings).execute (.allPaths source target) = .ok found →
        found = groups.flatten.map Path.text) ∧
      ((∃ error, (ofFiles files settings).execute (.allPaths source target) = .error error) ↔
        (∀ group ∈ groups, group = []) ∧
          ∃ file ∈ files, ¬ HasBoth source target (LoadedGraph.ofLines file.2).graph) := by
  let c := ofFiles files settings
  let groups := files.map fun file => pathsIn source target (LoadedGraph.ofLines file.2).graph
  have hexecute : c.execute (.allPaths source target) =
      joined (c.answers (.allPaths source target) c.graphs) := executeFrom_eq_joined c _ c.graphs
  have hgroups : c.graphs.flatMap (fun named => pathsIn source target named.graph) =
      groups.flatten := by
    show (files.map _).flatMap _ = _
    rw [List.flatMap_map, List.flatMap_def]
  have hresults := results_allPaths (c := c) h source target c.graphs
  rw [hgroups] at hresults
  refine ⟨groups, ?_, ?_, ?_⟩
  · rw [List.forall₂_map_right_iff, List.forall₂_same]
    intro file _
    exact isGroup_pathsIn source target file.2
  · intro found hfound
    rw [hexecute] at hfound
    exact (eq_results_of_joined hfound).trans hresults
  · have hstopped : ∀ error ∈ failures (c.answers (.allPaths source target) c.graphs),
        error.isAborted = false := fun error herror => (mem_failures_allPaths h herror).1
    rw [hexecute, joined_fails_iff hstopped, hresults, failures_allPaths_ne_nil_iff h,
      List.map_eq_nil_iff, List.flatten_eq_nil_iff]
    simp [c, ofFiles]

/-- A file with a record that is cut off and a key that comes twice, and a file that lacks
a name. -/
theorem execute_allPaths_ofFiles_damaged :
    let files :=
      [("whole",
          ["[\"a\",[\"b\",\"c\"]]", "[\"b\",", "[\"b\",[\"c\",\"a\"]]", "[\" a\",[\"c\",\"a\"]]"]),
        ("part", ["[\"c\",[\"b\"]]"])]
    ({} : Settings).timeoutMillis = none ∧
      (ofFiles files {}).execute (.allPaths "a" "c") = .ok ["a -> b -> c", "a -> c"] ∧
      ∃ groups, List.Forall₂ (fun file group => IsGroup "a" "c" file.2 group) files groups ∧
        ["a -> b -> c", "a -> c"] = groups.flatten.map Path.text := by
  intro files
  have hexecute : (ofFiles files {}).execute (.allPaths "a" "c") =
      .ok ["a -> b -> c", "a -> c"] := by decide +kernel
  obtain ⟨groups, hgroups, hfound, -⟩ := execute_allPaths_ofFiles files {} rfl "a" "c"
  exact ⟨rfl, hexecute, groups, hgroups, hfound _ hexecute⟩

end Catalog

end BindingGraph
