import BindingGraph.Proofs.Files.Listing
import BindingGraph.Workspace.Opened

/-!
# Finding and opening a workspace

The workspace found from a directory is the nearest one at it or above it, so far as parents are
looked at (`findRoot?_below`). What opening it gives is then told by its configuration and by what
the path that this names leads to: a graph file (`Opened.load_file`), or a directory with the graph
files in it (`loadDirectory_single`, `loadDirectory_none`).
-/

namespace BindingGraph.Workspace

open Console (pathOfLocation)

variable {files : FileTree} {path directory : FilePath}

/-! ## Finding -/

section Finding

variable {place : Location} {name : String}

theorem find?_ancestors {p : FilePath → Bool} {rest : Location}
    (hnames : ∀ name ∈ place ++ rest, IsFileName name) (hplace : p (pathOfLocation place) = true)
    (hnearer : ∀ front, front <+: rest → front ≠ [] → p (pathOfLocation (place ++ front)) = false)
    {count : Nat} (hcount : rest.length ≤ count) :
    (ancestors (pathOfLocation (place ++ rest)) count).find? p = some (pathOfLocation place) := by
  induction rest using List.reverseRecOn generalizing count with
  | nil =>
    rw [List.append_nil]
    cases count with
    | zero => rw [ancestors, List.find?_cons, hplace]
    | succ count =>
      rw [ancestors]
      split
      · rw [List.find?_cons, hplace]
      · rw [List.find?_cons, hplace]
  | append_singleton rest name ih =>
    obtain ⟨count, rfl⟩ : ∃ k, count = k + 1 := ⟨count - 1, by simp at hcount; omega⟩
    rw [← List.append_assoc] at hnames
    have hhere := hnearer (rest ++ [name]) (List.prefix_refl _) (by simp)
    rw [← List.append_assoc] at hhere ⊢
    rw [ancestors, FilePath.parent?_pathOfLocation hnames]
    dsimp only
    rw [List.find?_cons, hhere]
    apply ih
    · intro other hother
      exact hnames other (List.mem_append_left _ hother)
    · intro front hfront
      exact hnearer front (hfront.trans (List.prefix_append _ _))
    · simp at hcount
      omega

/-- A workspace is found from every location below it, if none is nearer. -/
theorem findRoot?_below {rest : Location} (hnames : ∀ name ∈ place ++ rest, IsFileName name)
    (hroot : isRoot files (pathOfLocation place) = true)
    (hnearer : ∀ front, front <+: rest → front ≠ [] →
      isRoot files (pathOfLocation (place ++ front)) = false)
    (hrest : rest.length ≤ maxParents) :
    findRoot? files (pathOfLocation (place ++ rest)) = some (pathOfLocation place) :=
  find?_ancestors hnames hroot hnearer hrest

theorem isFileName_markerName : IsFileName markerName := by decide

/-- Whether a directory is a workspace. -/
theorem isRoot_pathOfLocation (ht : files.IsTree) (hplace : files.get? place = some .directory) :
    isRoot files (pathOfLocation place) = true ↔
      pathBytes (place ++ [markerName]) ≤ FileTree.maxPathBytes ∧
        files.get? (place ++ [markerName]) = some .directory := by
  rw [isRoot, child_pathOfLocation (ht.isFileName_of_mem hplace) isFileName_markerName,
    FileTree.isDirectory, ht.entryAt_child hplace isFileName_markerName]
  by_cases hlong : FileTree.maxPathBytes < pathBytes (place ++ [markerName])
  · rw [if_pos hlong]
    simp
    omega
  · rw [if_neg hlong]
    rcases files.get? (place ++ [markerName]) with _ | (_ | bytes) <;> simp; omega

end Finding

/-! ## Reading -/

theorem loadConfiguration_run {bytes : List UInt8} {text : String} {configuration : Configuration}
    (hread : (FileAction.read path).run files = (.ok bytes, files))
    (htext : Text.decodeUtf8 bytes = .ok text)
    (hconfiguration : Configuration.ofText text = .ok configuration) :
    (loadConfiguration path).run files = (.ok configuration, files) := by
  have hreadText : (FileAction.readText path).run files = (.ok text, files) := by
    rw [FileAction.readText, run_bind_of_ok hread, htext]
    rfl
  rw [loadConfiguration, run_bind_of_ok (Action.run_onFiles_eq_ok_iff.mpr hreadText),
    hconfiguration]
  rfl

theorem loadFile_run {bytes : List UInt8} {lines : List String}
    (hfile : files.entryAt path = .ok (.file bytes))
    (hlines : Text.linesOfBytes bytes = .ok lines) :
    (loadFile path).run files = (.ok (graphName path, LoadedGraph.ofLines lines), files) := by
  have hread := FileAction.readLines_run hfile hlines
  rw [loadFile, run_bind_of_ok (Action.run_onFiles_eq_ok_iff.mpr hread)]
  rfl

theorem loadFile_run_of_error {error : FileError}
    (h : (FileAction.readLines path).run files = (.error error, files)) :
    (loadFile path).run files = (.error (.graphFile path error), files) := by
  rw [loadFile, run_bind, Action.run_onFiles, h]
  rfl

theorem loadSingle_run {bytes : List UInt8} {lines : List String}
    (hfile : files.entryAt path = .ok (.file bytes))
    (hlines : Text.linesOfBytes bytes = .ok lines) :
    (loadSingle path).run files =
      (.ok (.single (graphName path) (LoadedGraph.ofLines lines)), files) := by
  rw [loadSingle, run_bind_of_ok (loadFile_run hfile hlines)]
  rfl

theorem loadFrom_file {bytes : List UInt8} {lines : List String}
    (hfile : files.entryAt path = .ok (.file bytes))
    (hlines : Text.linesOfBytes bytes = .ok lines) :
    (loadFrom path).run files =
      (.ok (.single (graphName path) (LoadedGraph.ofLines lines)), files) := by
  have hisFile : files.isFile path = true := by rw [FileTree.isFile, hfile]
  rw [loadFrom, run_bind_of_ok (Action.run_ask _ _), hisFile]
  exact loadSingle_run hfile hlines

theorem loadFrom_directory (hdirectory : files.entryAt path = .ok .directory) :
    (loadFrom path).run files = (loadDirectory path).run files := by
  have hisFile : files.isFile path = false := by rw [FileTree.isFile, hdirectory]
  rw [loadFrom, run_bind_of_ok (Action.run_ask _ _), hisFile]
  rfl

/-! ## Directories of graph files -/

section Directories

variable {place : Location}

theorem readDirectory_run (hpath : files.locate directory = .ok place)
    (hplace : files.get? place = some .directory) :
    (FileAction.readDirectory directory).run files = (.ok (files.names place), files) := by
  rw [FileAction.readDirectory, run_bind_of_ok run_get, FileAction.run_ask_bind, hpath]
  dsimp only
  rw [hplace]
  rfl

/-- What there is not in a directory has no name there. -/
theorem names_eq_nil (h : ∀ name, files.get? (place ++ [name]) = none) :
    files.names place = [] := by
  rw [List.eq_nil_iff_forall_not_mem]
  intro name hname
  obtain ⟨entry, hentry⟩ := FileTree.mem_names_iff.mp hname
  rw [h name] at hentry
  cases hentry

theorem names_put (files : FileTree) (place : Location) (name : String) (entry : Entry) :
    (files.put (place ++ [name]) entry).names place =
      name :: (files.erase (place ++ [name])).names place := by
  show List.filterMap _ ((place ++ [name], entry) :: _) = _
  rw [List.filterMap_cons]
  dsimp only
  rw [List.dropLast_concat, if_pos rfl, List.getLast?_concat]
  rfl

/-- The graph files are picked from the listing. -/
theorem loadDirectory_run (hpath : files.locate directory = .ok place)
    (hplace : files.get? place = some .directory) :
    (loadDirectory directory).run files =
      if graphFileNames files directory (files.names place) = [] then
        (.error (.noGraphs directory), files)
      else
        (loadFiles ((graphFileNames files directory (files.names place)).map directory.child)).run
          files := by
  have hread := readDirectory_run hpath hplace
  rw [loadDirectory, run_bind_of_ok (Action.run_onFiles_eq_ok_iff.mpr hread),
    run_bind_of_ok run_get]
  cases graphFileNames files directory (files.names place) with
  | nil => rfl
  | cons name names => rw [if_neg (List.cons_ne_nil _ _)]

theorem loadDirectory_none (ht : files.IsTree) (hplace : files.get? place = some .directory)
    (hfits : pathBytes place ≤ FileTree.maxPathBytes)
    (hnames : files.names place = []) :
    (loadDirectory (pathOfLocation place)).run files =
      (.error (.noGraphs (pathOfLocation place)), files) := by
  have hgraphs : graphFileNames files (pathOfLocation place) [] = [] := by simp [graphFileNames]
  rw [loadDirectory_run (ht.locate_eq hplace hfits) hplace, hnames, if_pos hgraphs]

theorem LoadedGraphs.append_empty (loaded : LoadedGraphs) : loaded.append {} = loaded := by
  show LoadedGraphs.mk (loaded.graphs ++ []) (loaded.warnings ++ []) = loaded
  rw [List.append_nil, List.append_nil]

theorem loadDirectory_single (ht : files.IsTree) (hplace : files.get? place = some .directory)
    {name : String} {bytes : List UInt8} {lines : List String}
    (hfits : pathBytes (place ++ [name]) ≤ FileTree.maxPathBytes)
    (hnames : files.names place = [name]) (hgraph : isGraphName name = true)
    (hfile : files.get? (place ++ [name]) = some (.file bytes))
    (hlines : Text.linesOfBytes bytes = .ok lines) :
    (loadDirectory (pathOfLocation place)).run files =
      (.ok (.single (graphName (pathOfLocation (place ++ [name]))) (LoadedGraph.ofLines lines)),
        files) := by
  have hname : IsFileName name := ht.isFileName_of_mem hfile name (by simp)
  have hchild := child_pathOfLocation (ht.isFileName_of_mem hplace) hname
  have hentry : files.entryAt (pathOfLocation (place ++ [name])) = .ok (.file bytes) := by
    rw [ht.entryAt_child hplace hname, if_neg (Nat.not_lt.mpr hfits), hfile]
  have hdirectory : pathBytes place ≤ FileTree.maxPathBytes := by
    rw [pathBytes_append] at hfits; omega
  have hfileNames : graphFileNames files (pathOfLocation place) [name] = [name] := by
    rw [graphFileNames, List.filter_cons_of_pos, List.filter_nil, List.mergeSort_singleton]
    rw [hgraph, hchild, FileTree.isFile, hentry]
    rfl
  rw [loadDirectory_run (ht.locate_eq hplace hdirectory) hplace, hnames, hfileNames,
    if_neg (List.cons_ne_nil _ _), List.map_singleton, hchild, loadFiles,
    run_bind_of_ok (loadSingle_run hentry hlines)]
  show (Except.ok (LoadedGraphs.append _ {}), files) = _
  rw [LoadedGraphs.append_empty]

end Directories

/-! ## Opening -/

namespace Opened

theorem load_run {loaded : LoadedGraphs} (settings : Settings)
    (h : (loadFrom path).run files = (.ok loaded, files)) :
    (load path settings).run files =
      (.ok ⟨{ graphs := loaded.graphs, settings }, path, loaded.warnings⟩, files) := by
  rw [load, run_bind_of_ok h]
  rfl

theorem source_root {root : FilePath} {configuration : Configuration}
    (hroot : findRoot? files directory = some root)
    (hconfiguration :
      (loadConfiguration ((root.child markerName).child configurationName)).run files =
        (.ok configuration, files)) :
    (source directory none).run files =
      (.ok (root.join (.ofText configuration.graphs), configuration.engine), files) := by
  rw [source, run_bind_of_ok run_get, hroot]
  dsimp only
  rw [run_bind_of_ok hconfiguration]
  rfl

theorem source_given (hroot : findRoot? files directory = none) (path : FilePath) :
    (source directory (some path)).run files = (.ok (directory.join path, {}), files) := by
  rw [source, run_bind_of_ok run_get, hroot]
  rfl

end Opened

end BindingGraph.Workspace
