import BindingGraph.Proofs.Report.PrintedDocuments
import BindingGraph.Proofs.Report.ShownCounts
import BindingGraph.Proofs.Workspace.GraphDirectory

/-!
# Warnings in the listing of graphs

The listing counts the warnings under the name of each graph. The names of the graphs of a
directory are the names of its graph files without the common extension, so no two of them are
the same (`graphName_child_inj`), and the listing shows each graph with the warnings of its own
file (`graphs_counts_own_warnings`).
-/

namespace BindingGraph.Workspace

variable {files after : FileTree} {directory : FilePath} {place : Location}
  {name other stem : String}
variable {names : List String} {loaded : LoadedGraphs}

/-! ## The name of a graph -/

/-- Graph files of different names are loaded as graphs of different names. -/
theorem graphName_child_inj (hname : IsFileName name) (hother : IsFileName other)
    (hextension : HasGraphExtension name) (hotherExtension : HasGraphExtension other)
    (h : graphName (directory.child name) = graphName (directory.child other)) : name = other := by
  obtain ⟨stem, hstem, rfl⟩ := hextension
  obtain ⟨otherStem, hotherStem, rfl⟩ := hotherExtension
  rw [graphName_child hname hstem rfl, graphName_child hother hotherStem rfl] at h
  rw [h]

/-! ## What a directory is loaded from -/

/-- Files that have been loaded one after the other, each with the name of its graph. -/
def gather (loads : List (String × LoadedGraph)) : LoadedGraphs :=
  ⟨loads.map fun load => ⟨load.1, load.2.graph⟩,
    loads.flatMap fun load => load.2.warnings.map fun warning => (load.1, warning)⟩

/-- Each of the files is loaded, as what is listed. -/
def LoadedEach (files : FileTree) (directory : FilePath) (names : List String)
    (loads : List (String × LoadedGraph)) : Prop :=
  names.map (fun name => (loadFile (directory.child name)).run files) =
    loads.map fun load => (.ok load, files)

theorem loadFile_of_loadedAs {part : LoadedGraphs} (h : loadedAs files directory name = .ok part) :
    ∃ load, (loadFile (directory.child name)).run files = (.ok load, files) ∧
      part = .single load.1 load.2 := by
  have hrun : (loadSingle (directory.child name)).run files = (.ok part, files) := by
    rw [loadSingle_child_run, h]
  obtain ⟨load, middle, hload, hreturn⟩ := run_bind_eq_ok_iff.mp hrun
  cases hreturn
  exact ⟨load, hload, rfl⟩

theorem loadedAs_of_loadedEach {loads : List (String × LoadedGraph)}
    (h : LoadedEach files directory names loads) :
    names.map (loadedAs files directory) =
      (loads.map fun load => LoadedGraphs.single load.1 load.2).map .ok := by
  have hloaded (name : String) : loadedAs files directory name =
      ((loadFile (directory.child name)).run files).1.map fun load => .single load.1 load.2 := by
    rw [loadedAs, loadSingle, run_bind]
    rcases (loadFile (directory.child name)).run files with ⟨error | load, middle⟩ <;> rfl
  have hmap : names.map (loadedAs files directory) =
      (names.map fun name => (loadFile (directory.child name)).run files).map fun answer =>
        answer.1.map fun load => .single load.1 load.2 := by
    rw [List.map_map]
    exact List.map_congr_left fun name _ => hloaded name
  rw [hmap, show names.map _ = _ from h, List.map_map, List.map_map]
  rfl

/-- Files that are all loaded, taken apart. -/
theorem exists_loadedEach
    (h : (loadFiles (names.map directory.child)).run files = (.ok loaded, after)) :
    ∃ loads, LoadedEach files directory names loads ∧ loaded = gather loads := by
  induction names generalizing loaded after with
  | nil =>
    cases h
    exact ⟨[], rfl, rfl⟩
  | cons name names ih =>
    rw [loadFiles_cons_run] at h
    cases hfirst : loadedAs files directory name with
    | error error =>
      rw [hfirst] at h
      cases h
    | ok part =>
      rw [hfirst] at h
      rcases hothers : (loadFiles (names.map directory.child)).run files with
        ⟨error | others, middle⟩
      · rw [hothers] at h
        cases h
      · rw [hothers] at h
        obtain ⟨load, hload, rfl⟩ := loadFile_of_loadedAs hfirst
        obtain ⟨loads, hloads, rfl⟩ := ih hothers
        cases h
        refine ⟨load :: loads, ?_, rfl⟩
        rw [LoadedEach, List.map_cons, List.map_cons, hload, hloads]

/-- A directory that is loaded is one, with graph files in it that all are. -/
theorem exists_gather_of_loadDirectory (htree : files.IsTree)
    (hdistinct : (files.entries.map Prod.fst).Nodup)
    (h : (loadDirectory directory).run files = (.ok loaded, after)) :
    ∃ place names loads, LeadsTo files directory place ∧ names.Pairwise (· < ·) ∧
      (∀ name, name ∈ names ↔ IsGraphFile files directory place name) ∧
      LoadedEach files directory names loads ∧ loaded = gather loads := by
  obtain ⟨listed, middle, hlisted, -⟩ := run_bind_eq_ok_iff.mp h
  obtain ⟨_, _, hget, hread⟩ := run_bind_eq_ok_iff.mp (Action.run_onFiles_eq_ok_iff.mp hlisted)
  cases hget
  obtain ⟨place, hlocate, hplace⟩ := FileAction.run_ask_bind_eq_ok_iff.mp hread
  have hdirectory : files.get? place = some .directory := by
    split at hplace
    · assumption
    · exact absurd hplace run_throw_ne_ok
    · exact absurd hplace run_throw_ne_ok
  have hleads : LeadsTo files directory place := ⟨htree, hdistinct, hlocate, hdirectory⟩
  rw [loadDirectory_run hlocate hdirectory] at h
  split_ifs at h with hnone
  · cases h
  · obtain ⟨loads, hloads, hloaded⟩ := exists_loadedEach h
    exact ⟨place, _, loads, hleads, hleads.pairwise_graphFileNames,
      fun _ => hleads.mem_graphFileNames_iff, hloads, hloaded⟩

/-- The names of the loaded graphs, in the order of the files. -/
theorem LoadedEach.map_fst {loads : List (String × LoadedGraph)}
    (h : LoadedEach files directory names loads) :
    loads.map Prod.fst = names.map fun name => graphName (directory.child name) := by
  induction names generalizing loads with
  | nil =>
    obtain rfl := List.map_eq_nil_iff.mp h.symm
    rfl
  | cons name names ih =>
    obtain ⟨load, loads, rfl⟩ := List.exists_cons_of_ne_nil (show loads ≠ [] by rintro rfl; cases h)
    rw [LoadedEach, List.map_cons, List.map_cons, List.cons.injEq] at h
    obtain ⟨hload, hloads⟩ := h
    obtain ⟨lines, middle, -, hreturn⟩ := run_bind_eq_ok_iff.mp hload
    cases hreturn
    rw [List.map_cons, List.map_cons, ih hloads]

theorem nodup_map_graphName (h : LeadsTo files directory place) (hnodup : names.Nodup)
    (hnames : ∀ name ∈ names, IsGraphFile files directory place name) :
    (names.map fun name => graphName (directory.child name)).Nodup := by
  have hfileName (name : String) (hname : name ∈ names) : IsFileName name := by
    obtain ⟨bytes, hbytes⟩ := (hnames name hname).isFile
    exact h.tree.isFileName_of_mem hbytes name (by simp)
  refine List.Nodup.map_on ?_ hnodup
  intro name hname other hother heq
  exact graphName_child_inj (hfileName name hname) (hfileName other hother)
    (hnames name hname).extension
    (hnames other hother).extension heq

end BindingGraph.Workspace

namespace BindingGraph.Report

open Workspace (LoadedGraphs LoadedEach LeadsTo IsGraphFile gather loadDirectory)

/-! ## Counting by name -/

variable {loads : List (String × LoadedGraph)} {load : String × LoadedGraph} {name stem : String}

theorem filter_own_warnings (load : String × LoadedGraph) :
    (load.2.warnings.map fun warning => (load.1, warning)).filter (·.1 == load.1) =
      load.2.warnings.map fun warning => (load.1, warning) := by
  simp

theorem filter_warnings_of_ne (h : load.1 ≠ name) :
    (load.2.warnings.map fun warning => (load.1, warning)).filter (·.1 == name) = [] := by
  simp [h]

theorem filter_warnings_of_not_mem (h : name ∉ loads.map Prod.fst) :
    (gather loads).warnings.filter (·.1 == name) = [] := by
  induction loads with
  | nil => rfl
  | cons first loads ih =>
    rw [List.map_cons, List.mem_cons, not_or] at h
    rw [gather, List.flatMap_cons, List.filter_append, filter_warnings_of_ne (Ne.symm h.1)]
    exact ih h.2

/-- The warnings under the name of a graph are those of its file, if no other graph has the name. -/
theorem filter_warnings_gather (hnames : (loads.map Prod.fst).Nodup) (hload : load ∈ loads) :
    (gather loads).warnings.filter (·.1 == load.1) =
      load.2.warnings.map fun warning => (load.1, warning) := by
  induction loads with
  | nil => cases hload
  | cons first loads ih =>
    rw [List.map_cons, List.nodup_cons] at hnames
    rw [gather, List.flatMap_cons, List.filter_append]
    rcases List.mem_cons.mp hload with rfl | hload
    · have hothers := filter_warnings_of_not_mem hnames.1
      rw [gather] at hothers
      rw [filter_own_warnings, hothers, List.append_nil]
    · have hne : first.1 ≠ load.1 := fun heq => hnames.1 (heq ▸ List.mem_map_of_mem hload)
      rw [filter_warnings_of_ne hne, List.nil_append]
      exact ih hnames.2 hload

theorem warningCount_gather (hnames : (loads.map Prod.fst).Nodup) (hload : load ∈ loads) :
    warningCount (gather loads).warnings load.1 = load.2.warnings.length := by
  rw [warningCount, List.countP_eq_length_filter, filter_warnings_gather hnames hload,
    List.length_map]

theorem length_warnings_gather (loads : List (String × LoadedGraph)) :
    (gather loads).warnings.length = (loads.map fun load => load.2.warnings.length).sum := by
  simp [gather, List.length_flatMap]

/-! ## The listing -/

/-- The size of a loaded graph. -/
def summaryOf (load : String × LoadedGraph) : GraphSummary :=
  ⟨load.1, load.2.graph.nodeCount, load.2.graph.edgeCount⟩

/-- The number of warnings of each file, under the name of its graph. -/
def ownCounts (loads : List (String × LoadedGraph)) : List (String × Nat) :=
  loads.map fun load => (load.1, load.2.warnings.length)

theorem sum_ownCounts (loads : List (String × LoadedGraph)) :
    ((ownCounts loads).map Prod.snd).sum = (gather loads).warnings.length := by
  rw [ownCounts, List.map_map, length_warnings_gather]
  rfl

theorem summaries_gather (loads : List (String × LoadedGraph)) (settings : Settings) :
    Catalog.summaries { graphs := (gather loads).graphs, settings } = loads.map summaryOf := by
  rw [Catalog.summaries, gather, List.map_map]
  rfl

/-- Rows that are made of the size and the number of warnings under the name of each graph show the
warnings of its file. -/
theorem showsCounts_gather {Row : Type} {Shows : String → Nat → Row → Prop}
    {row : Nat → GraphSummary → Row} (hnames : (loads.map Prod.fst).Nodup)
    (hunique : ∀ {name other count count' row}, Shows name count row → Shows other count' row →
      count = count')
    (hrow : ∀ count summary, Shows summary.name count (row count summary)) :
    ShowsCounts Shows (ownCounts loads)
      ((loads.map summaryOf).map fun summary =>
        row (warningCount (gather loads).warnings summary.name) summary)
      (gather loads).warnings.length := by
  rw [← sum_ownCounts]
  refine showsCounts_of_unique @hunique ?_
  rw [ownCounts, List.map_map, List.forall₂_map_left_iff, List.forall₂_map_right_iff,
    List.forall₂_same]
  intro load hload
  show Shows load.1 load.2.warnings.length (row (warningCount _ load.1) (summaryOf load))
  rw [warningCount_gather hnames hload]
  exact hrow load.2.warnings.length (summaryOf load)

/-- The listing shows graphs of different names with the numbers of their own warnings, in a
document with one item for each or in one line for each. -/
theorem graphs_gather (hnames : (loads.map Prod.fst).Nodup) (view : Presentation)
    (settings : Settings) :
    let printed := graphs view
      (Catalog.summaries { graphs := (gather loads).graphs, settings }) (gather loads).warnings
    if view.json then
      ∃ rows, Prints printed.out (.array rows) ∧
        ShowsCounts DocumentShows (ownCounts loads) rows (gather loads).warnings.length
    else
      ∃ rows, printed.out = String.join (rows.map (· ++ "\n")) ∧
        ShowsCounts (LineShows view) (ownCounts loads) rows (gather loads).warnings.length := by
  intro printed
  have hprinted : printed = graphs view (loads.map summaryOf) (gather loads).warnings := by
    rw [← summaries_gather]
  split_ifs with hjson
  · rw [hprinted, graphs, if_pos hjson]
    exact ⟨_, prints_document _,
      showsCounts_gather hnames DocumentShows.unique documentShows_graphDocument⟩
  · rw [hprinted, graphs, if_neg hjson]
    exact ⟨_, rfl, showsCounts_gather hnames LineShows.unique (lineShows_graphLine view)⟩

/-- **Each graph with its own warnings.** A directory that is loaded has graph files that all are
loaded, in the order of their names, as graphs of different names. The warnings under the name of a
graph are those of its file, so what is printed shows each graph with the number of these, in lines
and in a document, and the numbers that are shown add up to the number of all warnings. -/
theorem graphs_counts_own_warnings (files after : FileTree) (directory : FilePath)
    (loaded : LoadedGraphs) (htree : files.IsTree) (hdistinct : (files.entries.map Prod.fst).Nodup)
    (hload : (loadDirectory directory).run files = (.ok loaded, after)) :
    ∃ place names loads, LeadsTo files directory place ∧ names.Pairwise (· < ·) ∧
      (∀ name, name ∈ names ↔ IsGraphFile files directory place name) ∧
      LoadedEach files directory names loads ∧ loaded = gather loads ∧
      (loaded.graphs.map (·.name)).Nodup ∧
      (∀ load ∈ loads, loaded.warnings.filter (·.1 == load.1) =
        load.2.warnings.map fun warning => (load.1, warning)) ∧
      (∀ view settings,
        let printed := graphs view
          (Catalog.summaries { graphs := loaded.graphs, settings }) loaded.warnings
        if view.json then
          ∃ rows, Prints printed.out (.array rows) ∧
            ShowsCounts DocumentShows (ownCounts loads) rows loaded.warnings.length
        else
          ∃ rows, printed.out = String.join (rows.map (· ++ "\n")) ∧
            ShowsCounts (LineShows view) (ownCounts loads) rows loaded.warnings.length) ∧
      (loads.map fun load => load.2.warnings.length).sum = loaded.warnings.length := by
  obtain ⟨place, names, loads, hleads, hsorted, hmem, hloads, rfl⟩ :=
    Workspace.exists_gather_of_loadDirectory htree hdistinct hload
  have hnames : (loads.map Prod.fst).Nodup := by
    rw [hloads.map_fst]
    exact Workspace.nodup_map_graphName hleads (hsorted.imp ne_of_lt) fun name hname =>
      (hmem name).mp hname
  refine ⟨place, names, loads, hleads, hsorted, hmem, hloads, rfl, ?_, ?_, ?_, ?_⟩
  · rw [gather, List.map_map]
    exact hnames
  · exact fun load => filter_warnings_gather hnames
  · exact graphs_gather hnames
  · exact (length_warnings_gather loads).symm

/-- A file of lines. -/
def lineFile (lines : List String) : Entry :=
  .file (Text.encodeUtf8 (String.join (lines.map (· ++ "\n"))))

/-- A directory with graph files whose names begin alike. -/
def counted : FileTree :=
  ⟨[(["g"], .directory), (["g", "a.b.jsonl"], lineFile ["nothing", "nothing"]),
    (["g", "a.jsonl"], lineFile ["[\"a\"]", "nothing"]), (["g", "..jsonl"], lineFile [])], []⟩

theorem leadsTo_counted : LeadsTo counted (.ofText "g") ["g"] :=
  ⟨by decide, by decide, (FileTree.locate_fileName (by decide)).trans rfl, rfl⟩

theorem isGraphFile_counted_iff :
    name ∈ ["..jsonl", "a.b.jsonl", "a.jsonl"] ↔ IsGraphFile counted (.ofText "g") ["g"] name := by
  constructor
  · intro hname
    simp only [List.mem_cons, List.not_mem_nil, or_false] at hname
    rcases hname with rfl | rfl | rfl
    · exact ⟨⟨".", by decide, rfl⟩, ⟨_, rfl⟩, Workspace.fits_of_short (by decide) (by decide)⟩
    · exact ⟨⟨"a.b", by decide, rfl⟩, ⟨_, rfl⟩, Workspace.fits_of_short (by decide) (by decide)⟩
    · exact ⟨⟨"a", by decide, rfl⟩, ⟨_, rfl⟩, Workspace.fits_of_short (by decide) (by decide)⟩
  · rintro ⟨-, ⟨bytes, hbytes⟩, -⟩
    have hname : name ∈ ["a.b.jsonl", "a.jsonl", "..jsonl"] :=
      FileTree.mem_names_iff.mpr ⟨_, hbytes⟩
    simpa [or_comm, or_left_comm] using hname

theorem loadFile_counted (stem : String) (lines : List String)
    (hname : IsFileName (stem ++ ".jsonl")) (hstem : stem ≠ "")
    (hfile : counted.get? (["g"] ++ [stem ++ ".jsonl"]) = some (lineFile lines))
    (hlines : lines ⊆ ["[\"a\"]", "nothing"]) :
    (Workspace.loadFile ((FilePath.ofText "g").child (stem ++ ".jsonl"))).run counted =
      (.ok (stem, LoadedGraph.ofLines lines), counted) := by
  have hentry := leadsTo_counted.entryAt_child (Workspace.fits_of_short (by decide) hname) hfile
  have hisLine (line : String) (hline : line ∈ lines) : Text.IsLine line :=
    Workspace.isLine_of_mem_declared line (hlines hline)
  rw [Workspace.loadFile_run hentry (Text.linesOfBytes_encodeLines hisLine),
    Workspace.graphName_child hname hstem rfl]

/-- What the files are loaded as. -/
def countedLoads : List (String × LoadedGraph) :=
  [(".", LoadedGraph.ofLines []), ("a.b", LoadedGraph.ofLines ["nothing", "nothing"]),
    ("a", LoadedGraph.ofLines ["[\"a\"]", "nothing"])]

theorem loadedEach_counted :
    LoadedEach counted (.ofText "g") ["..jsonl", "a.b.jsonl", "a.jsonl"] countedLoads := by
  have hfirst := loadFile_counted "." [] (by decide) (by decide) rfl (List.nil_subset _)
  have hsecond :=
    loadFile_counted "a.b" ["nothing", "nothing"] (by decide) (by decide) rfl (by simp)
  have hthird := loadFile_counted "a" ["[\"a\"]", "nothing"] (by decide) (by decide) rfl (by simp)
  exact congrArg₂ List.cons hfirst (congrArg₂ List.cons hsecond (congrArg₂ List.cons hthird rfl))

theorem graphFileNames_counted :
    Workspace.graphFileNames counted (.ofText "g") (counted.names ["g"]) =
      ["..jsonl", "a.b.jsonl", "a.jsonl"] :=
  leadsTo_counted.pairwise_graphFileNames.eq_of_mem_iff (by decide) fun _ =>
    leadsTo_counted.mem_graphFileNames_iff.trans isGraphFile_counted_iff.symm

theorem loadDirectory_counted :
    (loadDirectory (.ofText "g")).run counted = (.ok (gather countedLoads), counted) := by
  have hparts : ["..jsonl", "a.b.jsonl", "a.jsonl"].map (Workspace.loadedAs counted (.ofText "g")) =
      (countedLoads.map fun load => LoadedGraphs.single load.1 load.2).map .ok :=
    Workspace.loadedAs_of_loadedEach loadedEach_counted
  rw [Workspace.loadDirectory_run leadsTo_counted.located leadsTo_counted.isDirectory,
    graphFileNames_counted, if_neg (List.cons_ne_nil _ _), Workspace.loadFiles_run_of_ok hparts]
  simp [gather, LoadedGraphs.single, countedLoads]

theorem ownCounts_countedLoads : ownCounts countedLoads = [(".", 0), ("a.b", 2), ("a", 1)] := by
  decide +kernel

theorem length_warnings_countedLoads : (gather countedLoads).warnings.length = 3 := by
  rw [← sum_ownCounts, ownCounts_countedLoads]
  rfl

/-- Files with no, two and one warnings, as they are listed in lines and in a document: these
numbers are shown, and they add up to three. -/
theorem graphs_counts_own_warnings_counted :
    let printed (view : Presentation) := graphs view
      (Catalog.summaries { graphs := (gather countedLoads).graphs, settings := {} })
      (gather countedLoads).warnings
    counted.IsTree ∧ (counted.entries.map Prod.fst).Nodup ∧
      (loadDirectory (.ofText "g")).run counted = (.ok (gather countedLoads), counted) ∧
      (printed ⟨false, ⟨false, false⟩⟩).out =
        ".  0 bindings, 0 dependencies\n" ++
        "a.b  0 bindings, 0 dependencies  2 load warnings\n" ++
        "a  1 bindings, 0 dependencies  1 load warnings\n" ∧
      (printed ⟨true, ⟨false, false⟩⟩).out = String.join
        (["[",
          "  \x7b", "    \"name\": \".\",", "    \"nodes\": 0,", "    \"edges\": 0,",
          "    \"warnings\": 0", "  \x7d,",
          "  \x7b", "    \"name\": \"a.b\",", "    \"nodes\": 0,", "    \"edges\": 0,",
          "    \"warnings\": 2", "  \x7d,",
          "  \x7b", "    \"name\": \"a\",", "    \"nodes\": 1,", "    \"edges\": 0,",
          "    \"warnings\": 1", "  \x7d",
          "]"].map (· ++ "\n")) ∧
      ∀ view : Presentation,
        if view.json then
          ∃ rows, Prints (printed view).out (.array rows) ∧
            ShowsCounts DocumentShows [(".", 0), ("a.b", 2), ("a", 1)] rows 3
        else
          ∃ rows, (printed view).out = String.join (rows.map (· ++ "\n")) ∧
            ShowsCounts (LineShows view) [(".", 0), ("a.b", 2), ("a", 1)] rows 3 := by
  intro printed
  refine ⟨leadsTo_counted.tree, leadsTo_counted.distinct, loadDirectory_counted, ?_, ?_, ?_⟩
  · decide +kernel
  · decide +kernel
  · obtain ⟨place, names, loads, hleads, hsorted, hmem, hloads, -, -, -, hshown, -⟩ :=
      graphs_counts_own_warnings counted counted (.ofText "g") (gather countedLoads)
        leadsTo_counted.tree leadsTo_counted.distinct loadDirectory_counted
    obtain rfl : place = ["g"] := Except.ok.inj (hleads.located.symm.trans leadsTo_counted.located)
    obtain rfl : names = ["..jsonl", "a.b.jsonl", "a.jsonl"] :=
      hsorted.eq_of_mem_iff (by decide) fun name => (hmem name).trans isGraphFile_counted_iff.symm
    have hsame : loads = countedLoads := by
      refine List.map_injective_iff.mpr ?_ (hloads.symm.trans loadedEach_counted)
      intro load other heq
      exact Except.ok.inj (congrArg Prod.fst heq)
    rw [hsame, ownCounts_countedLoads, length_warnings_countedLoads] at hshown
    exact fun view => hshown view {}

end BindingGraph.Report
