import BindingGraph.Proofs.Workspace.ConfigurationText
import BindingGraph.Proofs.Workspace.Initialize
import BindingGraph.Proofs.Workspace.SaveLoad

/-!
# New workspaces

What there is in a directory that has just been made a workspace (`IsNew`) determines what the
workspace is used as: its configuration is the default one, it is found from below, the
example is the only graph, and it cannot be made again. Making a workspace either comes to
that or changes nothing, unless a path becomes too long on the way (`create_or_unfinished`),
as it can (`create_unfinished_nested`).
-/

namespace BindingGraph.Workspace

open Console (pathOfLocation)

variable {files : FileTree} {place : Location} {flag : Bool}

/-! ## What there is -/

/-- A directory has just been made a workspace. -/
structure IsNew (files : FileTree) (place : Location) (flag : Bool) : Prop where
  tree : files.IsTree
  base : files.get? place = some .directory
  marker : files.get? (markerPlace place) = some .directory
  configuration : files.get? (configurationPlace place) =
    some (.file (Text.encodeUtf8 ({} : Configuration).text))
  graphs : files.get? (graphsPlace place) = some .directory
  names : files.names (graphsPlace place) = if flag then [exampleFileName] else []
  exampleFile : flag = true →
    files.get? (examplePlace place) = some (.file (graphFileBytes exampleGraph))
  fits : pathBytes (lastPlace place flag) ≤ FileTree.maxPathBytes

section Stages

variable (ht : files.IsTree) (hplace : files.get? place = some .directory)
  (hnew : files.get? (markerPlace place) = none)
include ht hplace hnew

theorem isNew_withGraphs (hfits : pathBytes (configurationPlace place) ≤ FileTree.maxPathBytes) :
    IsNew (withGraphs files place) place false := by
  have htree := isTree_withGraphs ht hplace hnew
  have hmarker := htree.get?_parent get?_withGraphs
  refine ⟨htree, htree.get?_parent hmarker, hmarker, ?_, get?_withGraphs, ?_, ?_, hfits⟩
  · have hne : configurationPlace place ≠ graphsPlace place := by
      simp [configurationPlace, graphsPlace, configurationName]
    rw [withGraphs, FileTree.get?_put_of_ne hne]
    exact FileTree.get?_put_child _ _ _
  · exact names_eq_nil (get?_withGraphs_child ht hplace hnew)
  · intro h
    cases h

theorem isNew_withExample (hfits : pathBytes (examplePlace place) ≤ FileTree.maxPathBytes) :
    IsNew (withExample files place) place true := by
  have hbytes := pathBytes_examplePlace place
  have hbefore := isNew_withGraphs ht hplace hnew
    ((pathBytes_configurationPlace place).trans_le (by omega))
  have htree := isTree_withExample ht hplace hnew
  have hexample : (withExample files place).get? (examplePlace place) =
      some (.file (graphFileBytes exampleGraph)) := FileTree.get?_put_child _ _ _
  have hgraphs := htree.get?_parent hexample
  have hmarker := htree.get?_parent hgraphs
  refine ⟨htree, htree.get?_parent hmarker, hmarker, ?_, hgraphs, ?_, fun _ => hexample, hfits⟩
  · have hne : configurationPlace place ≠ examplePlace place := by
      simp [configurationPlace, examplePlace, graphsPlace, configurationName]
    rw [withExample, FileTree.get?_put_of_ne hne, hbefore.configuration]
  · have hnone : (withGraphs files place).get? (graphsPlace place ++ [exampleFileName]) = none :=
      get?_withGraphs_child ht hplace hnew exampleFileName
    rw [withExample, examplePlace, names_put, FileTree.erase_eq_self hnone, hbefore.names]
    rfl

end Stages

/-- The names of the example are such as a graph file can declare. -/
theorem isName_of_mem_nodes_exampleGraph : ∀ name ∈ exampleGraph.nodes, IsName name := by
  decide +kernel

/-! ## What it is used as -/

namespace IsNew

variable (h : IsNew files place flag)
include h

theorem fits_configuration : pathBytes (configurationPlace place) ≤ FileTree.maxPathBytes :=
  (pathBytes_configurationPlace_le place flag).trans h.fits

theorem fits_marker : pathBytes (markerPlace place) ≤ FileTree.maxPathBytes := by
  have hfits := h.fits_configuration
  have hbytes := pathBytes_configurationPlace place
  rw [pathBytes_markerPlace]
  omega

/-- Making a workspace once more is refused. -/
theorem create_again (again : Bool) :
    (create (pathOfLocation place) again).run files =
      (.error (.alreadyInitialized (pathOfLocation (markerPlace place))), files) :=
  create_of_exists h.tree h.base again h.fits_marker (by rw [h.marker]; rfl)

theorem loadConfiguration_eq :
    (loadConfiguration (pathOfLocation (configurationPlace place))).run files = (.ok {}, files) :=
  loadConfiguration_run
    (FileAction.read_child h.tree h.marker isFileName_configurationName h.fits_configuration
      h.configuration)
    (Text.decodeUtf8_encodeUtf8 _) Configuration.ofText_text_default

/-- The workspace is found from everywhere below it. -/
theorem findRoot?_eq {rest : Location} (hrest : files.get? (place ++ rest) = some .directory)
    (hcount : rest.length ≤ maxParents)
    (hnearer : ∀ front, front <+: rest → front ≠ [] →
      files.get? (place ++ front ++ [markerName]) ≠ some .directory) :
    findRoot? files (pathOfLocation (place ++ rest)) = some (pathOfLocation place) := by
  refine findRoot?_below (h.tree.isFileName_of_mem hrest)
    ((isRoot_pathOfLocation h.tree h.base).mpr ⟨h.fits_marker, h.marker⟩) ?_ hcount
  rintro front ⟨back, rfl⟩ hne
  rw [← List.append_assoc] at hrest
  have hfront := h.tree.get?_prefix hrest
  rw [Bool.eq_false_iff]
  intro hroot
  exact hnearer front (List.prefix_append _ _) hne
    ((isRoot_pathOfLocation h.tree hfront).mp hroot).2

theorem source_eq : (Opened.source (pathOfLocation place) none).run files =
    (.ok (pathOfLocation (graphsPlace place), {}), files) := by
  have hnames := h.tree.isFileName_of_mem h.base
  have hroot : findRoot? files (pathOfLocation place) = some (pathOfLocation place) := by
    have hbase : files.get? (place ++ []) = some .directory := by rw [List.append_nil, h.base]
    have hself := h.findRoot?_eq hbase (Nat.zero_le _) fun front hfront hne =>
      absurd (List.prefix_nil.mp hfront) hne
    rwa [List.append_nil] at hself
  have hconfiguration := h.loadConfiguration_eq
  rw [← child_configurationName hnames, ← child_markerName hnames] at hconfiguration
  rw [Opened.source_root hroot hconfiguration, join_graphs hnames]

theorem fits_graphs : pathBytes (graphsPlace place) ≤ FileTree.maxPathBytes := by
  have hfits := h.fits_configuration
  have hbytes := pathBytes_configurationPlace place
  rw [pathBytes_graphsPlace]
  omega

theorem loadFrom_graphs :
    (loadFrom (pathOfLocation (graphsPlace place))).run files =
      (loadDirectory (pathOfLocation (graphsPlace place))).run files := by
  have hdirectory : files.entryAt (pathOfLocation (graphsPlace place)) = .ok .directory := by
    rw [graphsPlace, h.tree.entryAt_child h.marker isFileName_graphs, ← graphsPlace,
      if_neg (Nat.not_lt.mpr h.fits_graphs), h.graphs]
  exact loadFrom_directory hdirectory

/-- Without the example there is no graph. -/
theorem ofDirectory_plain (hflag : flag = false) :
    (Opened.ofDirectory (pathOfLocation place) none).run files =
      (.error (.noGraphs (pathOfLocation (graphsPlace place))), files) := by
  have hnames : files.names (graphsPlace place) = [] := by rw [h.names, hflag]; rfl
  have hload : (Opened.load (pathOfLocation (graphsPlace place)) {}).run files =
      (.error (.noGraphs (pathOfLocation (graphsPlace place))), files) := by
    rw [Opened.load, run_bind_of_error]
    rw [h.loadFrom_graphs, loadDirectory_none h.tree h.graphs h.fits_graphs hnames]
  rw [Opened.ofDirectory, run_bind_of_ok h.source_eq]
  exact hload

/-- The example is the only graph, under the name of its file. -/
theorem ofDirectory_example (hflag : flag = true) :
    ∃ opened graph, (Opened.ofDirectory (pathOfLocation place) none).run files =
      (.ok opened, files) ∧
      opened.catalog = { graphs := [⟨"beach", graph⟩], settings := {} } ∧ opened.warnings = [] ∧
      graph.nodes = exampleGraph.nodes ∧
      ∀ name, graph.dependencies name = exampleGraph.dependencies name := by
  subst hflag
  have hexample := h.exampleFile rfl
  have hname : graphName (pathOfLocation (examplePlace place)) = "beach" := by
    have hsplit : FilePath.splitName exampleFileName = ("beach", some "jsonl") := by decide
    have hfileName : (pathOfLocation (examplePlace place)).fileName? = some exampleFileName :=
      FilePath.fileName?_pathOfLocation (h.tree.isFileName_of_mem hexample)
    rw [graphName, FilePath.stem?, hfileName, Option.map_some, hsplit]
    rfl
  have hload := loadDirectory_single h.tree h.graphs h.fits h.names (by decide) hexample
    (linesOfBytes_graphFileText exampleGraph)
  obtain ⟨hwarnings, hnodes, hedges⟩ := ofLines_records isName_of_mem_nodes_exampleGraph
  rw [← examplePlace, hname, ← h.loadFrom_graphs] at hload
  have hopen := Opened.load_run {} hload
  rw [LoadedGraphs.single, hwarnings] at hopen
  have hrun : (Opened.ofDirectory (pathOfLocation place) none).run files = _ :=
    (run_bind_of_ok h.source_eq).trans hopen
  refine ⟨_, _, hrun, rfl, rfl, hnodes, ?_⟩
  intro name
  rw [← exampleGraph.targets_edgesOf_bindings name, ← hedges]
  rfl

end IsNew

/-! ## Directories that are too deep -/

/-- A name of one letter that is repeated. -/
def repeated (count : Nat) : String := String.ofList (List.replicate count 'd')

theorem utf8ByteSize_repeated (count : Nat) : (repeated count).utf8ByteSize = count := by
  rw [repeated, String.utf8ByteSize_ofList]
  induction count with
  | zero => rfl
  | succ count ih =>
    rw [List.replicate_succ, String.utf8Len_cons, ih]
    rfl

theorem isFileName_repeated {count : Nat} (hlong : 2 < count)
    (hshort : count ≤ FileTree.maxNameBytes) :
    IsFileName (repeated count) := by
  have hne {name : String} (hname : name.utf8ByteSize ≤ 2) : repeated count ≠ name := by
    rintro rfl
    rw [utf8ByteSize_repeated] at hname
    omega
  exact ⟨hne (by decide), hne (by decide), hne (by decide), by simp [repeated], by simp [repeated],
    (utf8ByteSize_repeated count).trans_le hshort⟩

/-- A name that is nearly as long as names may be. -/
def longName : String := repeated 254

/-- Directories in one another. -/
def nested : Nat → FileTree
  | 0 => {}
  | depth + 1 => (nested depth).put (List.replicate depth longName ++ [longName]) .directory

theorem isFileName_longName : IsFileName longName := isFileName_repeated (by decide) (by decide)

theorem nested_spec (depth : Nat) :
    (nested depth).IsTree ∧ (nested depth).get? (List.replicate depth longName) =
      some .directory := by
  induction depth with
  | zero => exact ⟨by decide, by decide⟩
  | succ depth ih =>
    refine ⟨ih.1.put ih.2 isFileName_longName (.inl rfl), ?_⟩
    rw [List.replicate_succ']
    exact FileTree.get?_put_child _ _ _

/-- Further down than the directories go there is nothing. -/
theorem get?_nested_of_lt_length {depth : Nat} {place : Location} (h : depth < place.length) :
    (nested depth).get? place = none := by
  induction depth with
  | zero =>
    have hne : place ≠ [] := List.length_pos_iff.mp h
    rw [FileTree.get?, if_neg hne]
    rfl
  | succ depth ih =>
    have hne : place ≠ List.replicate depth longName ++ [longName] := by
      rintro rfl
      simp at h
    rw [nested, FileTree.get?_put_of_ne hne]
    exact ih (Nat.lt_of_succ_lt h)

theorem pathBytes_replicate_longName (depth : Nat) :
    pathBytes (List.replicate depth longName) = depth * 255 := by
  rw [pathBytes_replicate, longName, utf8ByteSize_repeated]

/-! ## Making a workspace -/

theorem sameOutside_withMarker (files : FileTree) (place : Location) :
    FileTree.SameOutside (markerPlace place) files (withMarker files place) :=
  (FileTree.SameOutside.refl _ _).put (List.prefix_refl _) _

theorem sameOutside_withGraphs (files : FileTree) (place : Location) :
    FileTree.SameOutside (markerPlace place) files (withGraphs files place) :=
  ((sameOutside_withMarker files place).put (List.prefix_append _ _) _).put
    (List.prefix_append _ _) _

theorem sameOutside_initialized (files : FileTree) (place : Location) (flag : Bool) :
    FileTree.SameOutside (markerPlace place) files (initialized files place flag) := by
  cases flag with
  | false => exact sameOutside_withGraphs files place
  | true =>
    have hinside : markerPlace place <+: examplePlace place :=
      (List.prefix_append _ _).trans (List.prefix_append _ _)
    exact (sameOutside_withGraphs files place).put hinside _

theorem isNew_initialized (ht : files.IsTree) (hplace : files.get? place = some .directory)
    (hnew : files.get? (markerPlace place) = none)
    (hfits : pathBytes (lastPlace place flag) ≤ FileTree.maxPathBytes) :
    IsNew (initialized files place flag) place flag := by
  cases flag with
  | false => exact isNew_withGraphs ht hplace hnew hfits
  | true => exact isNew_withExample ht hplace hnew hfits

theorem sameOutside_unfinished (files : FileTree) (place : Location) :
    FileTree.SameOutside (markerPlace place) files (unfinished files place) := by
  rw [unfinished]
  split
  · exact sameOutside_withMarker files place
  · exact sameOutside_withGraphs files place

/-- Making a workspace in a directory keeps all that is there. It is made if there is none and no
path is too long. If it is not made, nothing has changed, unless there is none and the first path
that is too long is below the marking directory: then that is the failure, and the steps before it
stay. A workspace that has been made is opened as it is meant to be, and cannot be made again. -/
theorem create_or_unfinished (ht : files.IsTree) (hplace : files.get? place = some .directory)
    (flag : Bool) :
    ∃ result after, (create (pathOfLocation place) flag).run files = (result, after) ∧
      FileTree.SameOutside (markerPlace place) files after ∧
      (∀ other entry, files.get? other = some entry → after.get? other = some entry) ∧
      ((∃ made, result = .ok made) ↔ files.get? (markerPlace place) = none ∧
        pathBytes (lastPlace place flag) ≤ FileTree.maxPathBytes) ∧
      (if files.get? (markerPlace place) = none ∧
          pathBytes (markerPlace place) ≤ FileTree.maxPathBytes ∧
          FileTree.maxPathBytes < pathBytes (lastPlace place flag) then
        (∃ error, result = .error error ∧ error.IsTooLong) ∧ after = unfinished files place
      else (∃ made, result = .ok made) ∨ ((∃ error, result = .error error) ∧ after = files)) ∧
      ∀ made, result = .ok made →
        (loadConfiguration (pathOfLocation (configurationPlace place))).run after =
          (.ok {}, after) ∧
        (∀ rest, after.get? (place ++ rest) = some .directory → rest.length ≤ maxParents →
          (∀ front, front <+: rest → front ≠ [] →
            after.get? (place ++ front ++ [markerName]) ≠ some .directory) →
          findRoot? after (pathOfLocation (place ++ rest)) = some (pathOfLocation place)) ∧
        (flag = true → ∃ opened graph,
          (Opened.ofDirectory (pathOfLocation place) none).run after = (.ok opened, after) ∧
            opened.catalog = { graphs := [⟨"beach", graph⟩], settings := {} } ∧
            opened.warnings = [] ∧
            graph.nodes = exampleGraph.nodes ∧
            ∀ name, graph.dependencies name = exampleGraph.dependencies name) ∧
        (flag = false → (Opened.ofDirectory (pathOfLocation place) none).run after =
          (.error (.noGraphs (pathOfLocation (graphsPlace place))), after)) ∧
        ∀ again, (create (pathOfLocation place) again).run after =
          (.error (.alreadyInitialized (pathOfLocation (markerPlace place))), after) := by
  -- The marking directory has the shortest of the paths.
  have hmarkerBytes := pathBytes_markerPlace place
  have hconfigurationBytes := pathBytes_configurationPlace place
  have hle := pathBytes_configurationPlace_le place flag
  rcases create_cases ht hplace flag with ⟨hnew, hfits, hrun⟩ | ⟨hrefused, error, hrun⟩ |
    ⟨hnew, hfits, hlong, error, herror, hrun⟩
  · have hsame := sameOutside_initialized files place flag
    have hdone := isNew_initialized ht hplace hnew hfits
    refine ⟨_, _, hrun, hsame, fun _ _ => hsame.get?_eq_some ht hnew, ?_, ?_, ?_⟩
    · exact iff_of_true ⟨_, rfl⟩ ⟨hnew, hfits⟩
    · rw [if_neg fun h => Nat.not_lt.mpr hfits h.2.2]
      exact .inl ⟨_, rfl⟩
    · intro made _
      exact ⟨hdone.loadConfiguration_eq, fun _ => hdone.findRoot?_eq, hdone.ofDirectory_example,
        hdone.ofDirectory_plain, hdone.create_again⟩
  · have hnotNew : ¬(files.get? (markerPlace place) = none ∧
        pathBytes (markerPlace place) ≤ FileTree.maxPathBytes) := by
      rintro ⟨hnew, hfits⟩
      rcases hrefused with hexists | hlong
      · rw [hnew] at hexists
        cases hexists
      · exact absurd hfits (Nat.not_le.mpr hlong)
    refine ⟨_, _, hrun, .refl _ _, fun _ _ hentry => hentry, ?_, ?_, ?_⟩
    · refine iff_of_false (fun ⟨_, h⟩ => by cases h) ?_
      rintro ⟨hnew, hfits⟩
      exact hnotNew ⟨hnew, by omega⟩
    · rw [if_neg fun h => hnotNew ⟨h.1, h.2.1⟩]
      exact .inr ⟨⟨error, rfl⟩, rfl⟩
    · intro made hmade
      cases hmade
  · have hsame := sameOutside_unfinished files place
    refine ⟨_, _, hrun, hsame, fun _ _ => hsame.get?_eq_some ht hnew, ?_, ?_, ?_⟩
    · exact iff_of_false (fun ⟨_, h⟩ => by cases h) fun h => absurd h.2 (Nat.not_le.mpr hlong)
    · rw [if_pos ⟨hnew, hfits, hlong⟩]
      exact ⟨⟨error, rfl, herror⟩, rfl⟩
    · intro made hmade
      cases hmade

/-- A directory with a file and a directory in it. -/
def furnished : FileTree :=
  ⟨[(["w", "sub"], .directory), (["w", "note"], .file [33]), (["w"], .directory)], []⟩

/-- With room below a directory the example is opened in it; in a directory that is too deep, the
marking directory is made and stays empty. -/
theorem create_or_unfinished_furnished_nested :
    (∃ made after, (create (pathOfLocation ["w"]) true).run furnished = (.ok made, after) ∧
      after.get? ["w", "note"] = some (.file [33]) ∧
      findRoot? after (pathOfLocation ["w", "sub"]) = some (pathOfLocation ["w"]) ∧
      ∃ opened graph,
        (Opened.ofDirectory (pathOfLocation ["w"]) none).run after = (.ok opened, after) ∧
          opened.catalog = { graphs := [⟨"beach", graph⟩], settings := {} } ∧
          graph.nodes = exampleGraph.nodes) ∧
    ∃ error, error.IsTooLong ∧
      (create (pathOfLocation (List.replicate 16 longName)) false).run (nested 16) =
        (.error error, withMarker (nested 16) (List.replicate 16 longName)) := by
  constructor
  · have htree : furnished.IsTree := by decide
    have hplace : furnished.get? ["w"] = some .directory := by decide
    obtain ⟨result, after, hrun, hsame, hkept, hmade, -, hdone⟩ :=
      create_or_unfinished htree hplace true
    obtain ⟨made, rfl⟩ := hmade.mpr (by decide)
    obtain ⟨-, hfound, hexample, -, -⟩ := hdone made rfl
    obtain ⟨opened, graph, hopened, hcatalog, -, hnodes, -⟩ := hexample rfl
    refine ⟨made, after, hrun, hkept _ _ (by decide), ?_, opened, graph, hopened, hcatalog, hnodes⟩
    refine hfound ["sub"] (hkept _ _ (by decide)) (by decide) ?_
    intro front hfront hne
    obtain rfl : front = ["sub"] := by
      rcases List.prefix_cons_iff.mp hfront with rfl | ⟨names, rfl, hnames⟩
      · exact absurd rfl hne
      · rw [List.prefix_nil.mp hnames]
    have hnone : furnished.get? ["w", "sub", markerName] = none := by decide
    show after.get? ["w", "sub", markerName] ≠ _
    rw [hsame.get? _ (by decide), hnone]
    simp
  · obtain ⟨htree, hplace⟩ := nested_spec 16
    have hlong : FileTree.maxPathBytes <
        pathBytes (configurationPlace (List.replicate 16 longName)) := by
      rw [pathBytes_configurationPlace, pathBytes_replicate_longName]
      decide
    have hfits : pathBytes (markerPlace (List.replicate 16 longName)) ≤ FileTree.maxPathBytes := by
      rw [pathBytes_markerPlace, pathBytes_replicate_longName]
      decide
    have hnew : (nested 16).get? (markerPlace (List.replicate 16 longName)) = none :=
      get?_nested_of_lt_length (by simp [markerPlace])
    obtain ⟨result, after, hrun, -, -, -, hrest⟩ := create_or_unfinished htree hplace false
    rw [if_pos ⟨hnew, hfits, hlong⟩, unfinished, if_pos hlong] at hrest
    obtain ⟨⟨⟨error, rfl, herror⟩, rfl⟩, -⟩ := hrest
    exact ⟨error, herror, hrun⟩

/-- In a directory whose path is long enough, the marking directory is made and the configuration
is not. -/
theorem create_unfinished_nested :
    (nested 16).IsTree ∧ (nested 16).get? (List.replicate 16 longName) = some .directory ∧
      ∃ after, (create (pathOfLocation (List.replicate 16 longName)) false).run (nested 16) =
          (.error (.file .nameTooLong), after) ∧ after ≠ nested 16 := by
  obtain ⟨ht, hplace⟩ := nested_spec 16
  have hbytes := pathBytes_replicate_longName 16
  have hnew : (nested 16).get? (markerPlace (List.replicate 16 longName)) = none :=
    get?_nested_of_lt_length (by simp [markerPlace])
  have hrun := create_of_long_configuration ht hplace false hnew
    (by rw [pathBytes_markerPlace, hbytes]; decide)
    (by rw [pathBytes_configurationPlace, hbytes]; decide)
  refine ⟨ht, hplace, _, hrun, ?_⟩
  intro hsame
  have hmarker : (withMarker (nested 16) (List.replicate 16 longName)).get?
      (markerPlace (List.replicate 16 longName)) = some .directory := get?_withMarker
  rw [hsame, hnew] at hmarker
  cases hmarker

end BindingGraph.Workspace
