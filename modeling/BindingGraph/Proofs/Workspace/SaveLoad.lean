import BindingGraph.Proofs.Files.FileTree
import BindingGraph.Proofs.Record.LedgerGraph
import BindingGraph.Workspace.GraphFile
import Mathlib

/-!
# Saving a graph and loading it again

What a saved graph is loaded as are the lines that its records make (`loadFile_of_saveFile`),
whatever its names are. If a graph file can declare the names, then the graph comes back with the
nodes in their order and each node with its dependencies in theirs, and without a warning; the names
of a loaded graph always are such, and it comes back as it is (`saveFile_loadFile`).
-/

namespace BindingGraph.Workspace

variable {path : FilePath} {graph : DependencyGraph} {files saved : FileTree}

/-! ## Through the file -/

/-- A graph that has been saved is in its file. -/
theorem entryAt_of_saveFile (h : (saveFile path graph).run files = (.ok (), saved)) :
    saved.entryAt path = .ok (.file (Text.encodeUtf8 (graphFileText graph))) := by
  have hattempt := run_tryCatch_eq_ok ?_ h
  · obtain ⟨_, written, hwrite, hmove⟩ := run_bind_eq_ok_iff.mp hattempt
    exact FileAction.entryAt_of_write_moveFile (Action.run_onFiles_eq_ok_iff.mp hwrite)
      (Action.run_onFiles_eq_ok_iff.mp hmove)
  · -- After a failure the temporary file goes, and the failure stays.
    intro error middle hcleared
    obtain ⟨_, cleared, -, hthrow⟩ := run_bind_eq_ok_iff.mp hcleared
    exact run_throw_ne_ok hthrow

theorem linesOfBytes_graphFileText (graph : DependencyGraph) :
    Text.linesOfBytes (Text.encodeUtf8 (graphFileText graph)) =
      .ok ((records graph).map Record.text) := by
  have htext : graphFileText graph =
      String.join (((records graph).map Record.text).map (· ++ "\n")) := by
    rw [graphFileText, List.map_map]
    rfl
  rw [htext]
  apply Text.linesOfBytes_encodeLines
  intro line hline
  obtain ⟨record, -, rfl⟩ := List.mem_map.mp hline
  exact record.isLine_text

/-- What has been saved is loaded as the lines of its records. -/
theorem loadFile_of_saveFile (h : (saveFile path graph).run files = (.ok (), saved)) :
    (loadFile path).run saved =
      (.ok (graphName path, LoadedGraph.ofLines ((records graph).map Record.text)), saved) := by
  refine run_bind_eq_ok_iff.mpr ⟨(records graph).map Record.text, saved, ?_, rfl⟩
  exact Action.run_onFiles_eq_ok_iff.mpr
    (FileAction.readLines_run (entryAt_of_saveFile h) (linesOfBytes_graphFileText graph))

/-! ## Through the records -/

theorem keys_records (graph : DependencyGraph) : (records graph).map Record.key = graph.nodes := by
  rw [records, List.map_map, ← graph.keys_bindings]
  rfl

theorem isProper_of_mem_records (h : ∀ name ∈ graph.nodes, IsName name) :
    ∀ record ∈ records graph, record.IsProper := by
  intro record hrecord
  obtain ⟨group, hgroup, rfl⟩ := List.mem_map.mp hrecord
  obtain ⟨node, hnode, rfl⟩ := List.mem_map.mp hgroup
  refine ⟨h node hnode, ?_⟩
  intro dependency hdependency
  exact h dependency (DependencyGraph.mem_nodes_of_mem_dependencies hdependency)

theorem dependencies_subset_of_mem_records :
    ∀ record ∈ records graph, record.dependencies ⊆ (records graph).map Record.key := by
  intro record hrecord dependency hdependency
  obtain ⟨group, hgroup, rfl⟩ := List.mem_map.mp hrecord
  obtain ⟨node, -, rfl⟩ := List.mem_map.mp hgroup
  rw [keys_records]
  exact DependencyGraph.mem_nodes_of_mem_dependencies hdependency

theorem groups_records (graph : DependencyGraph) (warnings : List LoadWarning) :
    Ledger.groups ⟨records graph, warnings⟩ = graph.bindings := by
  rw [Ledger.groups, records, List.map_map, DependencyGraph.bindings, List.map_map]
  apply List.map_congr_left
  intro node _
  have hnodup : (graph.dependencies node).foldl insertEnd [] = graph.dependencies node :=
    foldl_insertEnd_of_nodup (DependencyGraph.nodup_dependencies graph node)
  exact Prod.ext rfl hnodup

/-- The graph of the records of a graph has the same nodes and its edges, group by group. -/
theorem ofLines_records (h : ∀ name ∈ graph.nodes, IsName name) :
    (LoadedGraph.ofLines ((records graph).map Record.text)).warnings = [] ∧
      (LoadedGraph.ofLines ((records graph).map Record.text)).graph.nodes = graph.nodes ∧
      (LoadedGraph.ofLines ((records graph).map Record.text)).graph.edges =
        edgesOf graph.bindings := by
  have hkeys : Ledger.keys ⟨records graph, []⟩ |>.Nodup := by
    rw [Ledger.keys, keys_records]
    exact graph.nodes_nodup
  have hledger := Ledger.ofLines_texts hkeys (isProper_of_mem_records h)
  refine ⟨?_, ?_, ?_⟩
  · rw [LoadedGraph.ofLines, hledger]
  · rw [LoadedGraph.ofLines, hledger]
    exact (Ledger.nodes_graph_of_closed hkeys dependencies_subset_of_mem_records).trans
      (keys_records graph)
  · rw [LoadedGraph.ofLines, hledger]
    exact (Ledger.edges_graph hkeys).trans (congrArg edgesOf (groups_records graph []))

/-- Whatever the lines of a file are, the names in its graph are such as a graph file
can declare. -/
theorem isName_of_mem_nodes_ofLines (lines : List String) :
    ∀ name ∈ (LoadedGraph.ofLines lines).graph.nodes, IsName name :=
  fun _ hname => (Ledger.isProper_ofLines lines).isName_of_mem_nodes hname

theorem eq_of_warnings_eq_nil {loaded : LoadedGraph} (hgraph : loaded.graph = graph)
    (hwarnings : loaded.warnings = []) : loaded = ⟨graph, []⟩ := by
  rw [← hgraph, ← hwarnings]

/-- A graph that comes from lines is the graph of its records. -/
theorem ofLines_records_ofLines (lines : List String) :
    LoadedGraph.ofLines ((records (LoadedGraph.ofLines lines).graph).map Record.text) =
      ⟨(LoadedGraph.ofLines lines).graph, []⟩ := by
  obtain ⟨hwarnings, hnodes, hedges⟩ := ofLines_records (isName_of_mem_nodes_ofLines lines)
  have hgroups := Ledger.edgesOf_bindings_graph (Ledger.isProper_ofLines lines).keys_nodup
  have hgraph := DependencyGraph.ext_of_edges hnodes (hedges.trans hgroups)
  exact eq_of_warnings_eq_nil hgraph hwarnings

theorem loadFile_ok {name : String} {loaded : LoadedGraph} {files' : FileTree}
    (h : (loadFile path).run files = (.ok (name, loaded), files')) :
    ∃ lines, loaded = LoadedGraph.ofLines lines := by
  obtain ⟨lines, middle, -, hreturn⟩ := run_bind_eq_ok_iff.mp h
  cases hreturn
  exact ⟨lines, rfl⟩

/-! ## A tree with nothing but a graph -/

/-- The tree in which there is only a graph, in a file of its own. -/
def onlyGraph (graph : DependencyGraph) : FileTree :=
  ⟨[(["g.jsonl"], .file (Text.encodeUtf8 (graphFileText graph)))], []⟩

theorem saveFile_empty (graph : DependencyGraph) :
    (saveFile (.ofText "g.jsonl") graph).run {} = (.ok (), onlyGraph graph) := by
  unfold saveFile onlyGraph
  generalize Text.encodeUtf8 (graphFileText graph) = bytes
  cbv

/-- A graph whose names hold quotes, backslashes and line ends. -/
def awkward : DependencyGraph := .ofBindings [("say \"a\"", ["b\\c\r\nd", "say \"a\""])]

/-! ## Both ways -/

/-- Saving and loading again changes nothing that a graph file can declare, and every graph that has
been loaded is of this kind, so that it comes back as it is. -/
theorem saveFile_loadFile :
    (∀ (path : FilePath) (graph : DependencyGraph) (files saved : FileTree),
      (∀ name ∈ graph.nodes, IsName name) → (saveFile path graph).run files = (.ok (), saved) →
        ∃ loaded, (loadFile path).run saved = (.ok (graphName path, loaded), saved) ∧
          loaded.warnings = [] ∧ loaded.graph.nodes = graph.nodes ∧
          (∀ name, loaded.graph.dependencies name = graph.dependencies name) ∧
          loaded.graph.nodeCount = graph.nodeCount ∧ loaded.graph.edgeCount = graph.edgeCount) ∧
    (∀ lines, ∀ name ∈ (LoadedGraph.ofLines lines).graph.nodes, IsName name) ∧
    ∀ (source target : FilePath) (name : String) (first : LoadedGraph) (files files' : FileTree)
      (present saved : FileTree),
      (loadFile source).run files = (.ok (name, first), files') →
        (saveFile target first.graph).run present = (.ok (), saved) →
        (loadFile target).run saved = (.ok (graphName target, ⟨first.graph, []⟩), saved) := by
  refine ⟨?_, isName_of_mem_nodes_ofLines, ?_⟩
  · intro path graph files saved hnames hsave
    obtain ⟨hwarnings, hnodes, hedges⟩ := ofLines_records hnames
    refine ⟨_, loadFile_of_saveFile hsave, hwarnings, hnodes, ?_, ?_, ?_⟩
    · intro name
      rw [← graph.targets_edgesOf_bindings name, ← hedges]
      rfl
    · exact congrArg List.length hnodes
    · exact (congrArg List.length hedges).trans graph.perm_edgesOf_bindings.length_eq
  · intro source target name first files files' present saved hload hsave
    obtain ⟨lines, rfl⟩ := loadFile_ok hload
    rw [loadFile_of_saveFile hsave, ofLines_records_ofLines]

theorem saveFile_loadFile_awkward :
    ∃ loaded, (loadFile (.ofText "g.jsonl")).run (onlyGraph awkward) =
        (.ok (graphName (.ofText "g.jsonl"), loaded), onlyGraph awkward) ∧
      loaded.graph.nodes = ["say \"a\"", "b\\c\r\nd"] ∧
      (loadFile (.ofText "g.jsonl")).run (onlyGraph loaded.graph) =
        (.ok (graphName (.ofText "g.jsonl"), ⟨loaded.graph, []⟩), onlyGraph loaded.graph) := by
  obtain ⟨loaded, hload, -, hnodes, -⟩ := saveFile_loadFile.1 (.ofText "g.jsonl") awkward {}
    (onlyGraph awkward) (by decide) (saveFile_empty awkward)
  exact ⟨loaded, hload, hnodes, saveFile_loadFile.2.2 _ _ _ loaded _ _ {} _ hload
    (saveFile_empty loaded.graph)⟩

end BindingGraph.Workspace
