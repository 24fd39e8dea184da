import BindingGraph.Proofs.Workspace.Loading
import BindingGraph.Proofs.Workspace.Saving
import Mathlib.Order.Basic

/-!
# Making a workspace

A workspace is made in four steps, each of which adds one entry to the files (`withMarker`,
`withConfiguration`, `withGraphs`, `withExample`). Where nothing has the name of the marking
directory, a step fails only if its path is too long, and what the steps before it have added stays
(`unfinished`, `create_cases`).
-/

namespace BindingGraph.Workspace

open Console (pathOfLocation)

/-! ## Places -/

section Places

variable (place : Location)

/-- Where the directory is that makes its parent a workspace. -/
def markerPlace : Location := place ++ [markerName]

/-- Where the configuration is. -/
def configurationPlace : Location := markerPlace place ++ [configurationName]

/-- Where the graphs are. -/
def graphsPlace : Location := markerPlace place ++ ["graphs"]

/-- Where the example graph is. -/
def examplePlace : Location := graphsPlace place ++ [exampleFileName]

/-- Where the example graph is written first. -/
def draftPlace : Location := graphsPlace place ++ ["beach.tmp"]

theorem pathBytes_markerPlace : pathBytes (markerPlace place) = pathBytes place + 8 := by
  rw [markerPlace, pathBytes_append]
  rfl

theorem pathBytes_configurationPlace :
    pathBytes (configurationPlace place) = pathBytes place + 20 := by
  rw [configurationPlace, pathBytes_append, pathBytes_markerPlace]
  rfl

theorem pathBytes_graphsPlace : pathBytes (graphsPlace place) = pathBytes place + 15 := by
  rw [graphsPlace, pathBytes_append, pathBytes_markerPlace]
  rfl

theorem pathBytes_examplePlace : pathBytes (examplePlace place) = pathBytes place + 27 := by
  rw [examplePlace, pathBytes_append, pathBytes_graphsPlace]
  rfl

theorem pathBytes_draftPlace : pathBytes (draftPlace place) = pathBytes place + 25 := by
  rw [draftPlace, pathBytes_append, pathBytes_graphsPlace]
  rfl

end Places

/-- The last place that a new workspace needs, and the one with the longest path. -/
def lastPlace (place : Location) (flag : Bool) : Location :=
  if flag then examplePlace place else configurationPlace place

theorem pathBytes_configurationPlace_le (place : Location) (flag : Bool) :
    pathBytes (configurationPlace place) ≤ pathBytes (lastPlace place flag) := by
  cases flag with
  | false => exact Nat.le_refl _
  | true =>
    rw [lastPlace, if_pos rfl, pathBytes_examplePlace, pathBytes_configurationPlace]
    omega

variable {files : FileTree} {place : Location}

theorem isFileName_configurationName : IsFileName configurationName := by decide

theorem isFileName_graphs : IsFileName "graphs" := by decide

theorem isFileName_exampleFileName : IsFileName exampleFileName := by decide

theorem isFileName_draft : IsFileName "beach.tmp" := by decide

/-! ## Paths -/

section Paths

variable (hnames : ∀ name ∈ place, IsFileName name)
include hnames

theorem isFileName_markerPlace : ∀ name ∈ markerPlace place, IsFileName name :=
  isFileName_of_mem_concat hnames isFileName_markerName

theorem isFileName_graphsPlace : ∀ name ∈ graphsPlace place, IsFileName name :=
  isFileName_of_mem_concat (isFileName_markerPlace hnames) isFileName_graphs

theorem child_markerName :
    (pathOfLocation place).child markerName = pathOfLocation (markerPlace place) :=
  child_pathOfLocation hnames isFileName_markerName

theorem child_configurationName :
    (pathOfLocation (markerPlace place)).child configurationName =
      pathOfLocation (configurationPlace place) :=
  child_pathOfLocation (isFileName_markerPlace hnames) isFileName_configurationName

theorem join_graphs :
    (pathOfLocation place).join (.ofText ({} : Configuration).graphs) =
      pathOfLocation (graphsPlace place) := by
  have htext : FilePath.ofText ({} : Configuration).graphs = ⟨[".tangle", "graphs"]⟩ := by
    show FilePath.ofText ".tangle/graphs" = _
    cbv
  rw [htext, join_pathOfLocation hnames (by decide)]
  rw [graphsPlace, markerPlace, List.append_assoc]
  rfl

theorem child_exampleFileName :
    (pathOfLocation (graphsPlace place)).child exampleFileName =
      pathOfLocation (examplePlace place) :=
  child_pathOfLocation (isFileName_graphsPlace hnames) isFileName_exampleFileName

end Paths

/-! ## Stages -/

section Stages

variable (files place)

/-- The files with the directory that makes its parent a workspace, and with nothing in it. -/
def withMarker : FileTree := files.put (markerPlace place) .directory

def withConfiguration : FileTree :=
  (withMarker files place).put (configurationPlace place)
    (.file (Text.encodeUtf8 ({} : Configuration).text))

def withGraphs : FileTree := (withConfiguration files place).put (graphsPlace place) .directory

def withExample : FileTree :=
  (withGraphs files place).put (examplePlace place) (.file (graphFileBytes exampleGraph))

/-- The files with a new workspace. -/
def initialized (flag : Bool) : FileTree :=
  if flag then withExample files place else withGraphs files place

/-- The files where a path below the marking directory is too long: that of the configuration, or,
with a directory for graphs as the last step that succeeds, that of the example. -/
def unfinished : FileTree :=
  if FileTree.maxPathBytes < pathBytes (configurationPlace place) then withMarker files place
  else withGraphs files place

variable {files place} (ht : files.IsTree) (hplace : files.get? place = some .directory)
  (hnew : files.get? (markerPlace place) = none)

theorem get?_withMarker : (withMarker files place).get? (markerPlace place) = some .directory :=
  FileTree.get?_put_child _ _ _

theorem get?_withConfiguration :
    (withConfiguration files place).get? (markerPlace place) = some .directory := by
  rw [withConfiguration, FileTree.get?_put_of_ne (by simp [configurationPlace]), get?_withMarker]

theorem get?_withGraphs : (withGraphs files place).get? (graphsPlace place) = some .directory :=
  FileTree.get?_put_child _ _ _

include ht hnew

/-- The new directory is empty. -/
theorem get?_withMarker_below {rest : Location} (hrest : rest ≠ []) :
    (withMarker files place).get? (markerPlace place ++ rest) = none := by
  rw [withMarker, FileTree.get?_put_of_ne (by simpa using hrest), ht.get?_below_eq_none hnew]

theorem get?_withConfiguration_graphsPlace :
    (withConfiguration files place).get? (graphsPlace place) = none := by
  have hne : graphsPlace place ≠ configurationPlace place := by
    simp [configurationPlace, graphsPlace, configurationName]
  rw [withConfiguration, FileTree.get?_put_of_ne hne]
  exact get?_withMarker_below ht hnew (List.cons_ne_nil _ _)

include hplace

omit hnew in
theorem isTree_withMarker : (withMarker files place).IsTree :=
  ht.put hplace isFileName_markerName (.inl rfl)

theorem isTree_withConfiguration : (withConfiguration files place).IsTree := by
  have hfree : (withMarker files place).get? (configurationPlace place) = none :=
    get?_withMarker_below ht hnew (List.cons_ne_nil _ _)
  refine (isTree_withMarker ht hplace).put get?_withMarker isFileName_configurationName (.inr ?_)
  rw [← configurationPlace, hfree]
  simp

theorem isTree_withGraphs : (withGraphs files place).IsTree :=
  (isTree_withConfiguration ht hplace hnew).put get?_withConfiguration isFileName_graphs (.inl rfl)

/-- The directory for graphs is empty. -/
theorem get?_withGraphs_child (name : String) :
    (withGraphs files place).get? (graphsPlace place ++ [name]) = none := by
  rw [withGraphs, FileTree.get?_put_of_ne (by simp),
    (isTree_withConfiguration ht hplace hnew).get?_below_eq_none
      (get?_withConfiguration_graphsPlace ht hnew)]

theorem isTree_withExample : (withExample files place).IsTree := by
  refine (isTree_withGraphs ht hplace hnew).put get?_withGraphs isFileName_exampleFileName (.inr ?_)
  rw [get?_withGraphs_child ht hplace hnew]
  simp

end Stages

/-! ## Steps -/

/-- Whether a failure is that a path is too long. -/
def Error.IsTooLong : Error → Prop
  | .file error => error = .nameTooLong
  | .graphFile _ error => error = .nameTooLong
  | _ => False

/-- What making a workspace in a directory answers if it succeeds. -/
def created (place : Location) (flag : Bool) : Created where
  marker := pathOfLocation (markerPlace place)
  configuration := pathOfLocation (configurationPlace place)
  graphs := pathOfLocation (graphsPlace place)
  example? := if flag then some (pathOfLocation (examplePlace place)) else none

/-- Where anything has the name of the marking directory, nothing is done. -/
theorem create_of_pathExists {base : FilePath} (h : files.pathExists (base.child markerName) = true)
    (flag : Bool) :
    (create base flag).run files =
      (.error (.alreadyInitialized (base.child markerName)), files) := by
  rw [create]
  dsimp only
  rw [run_bind_of_ok (Action.run_ask _ _), h]
  rfl

section Run

variable (ht : files.IsTree) (hplace : files.get? place = some .directory) (flag : Bool)
include ht hplace

theorem pathExists_markerPlace :
    files.pathExists (pathOfLocation (markerPlace place)) =
      (decide (pathBytes (markerPlace place) ≤ FileTree.maxPathBytes) &&
        (files.get? (markerPlace place)).isSome) := by
  have hentry := ht.entryAt_child hplace isFileName_markerName
  rw [← markerPlace] at hentry
  rw [FileTree.pathExists, hentry]
  by_cases hlong : FileTree.maxPathBytes < pathBytes (markerPlace place)
  · rw [if_pos hlong, decide_eq_false (Nat.not_le.mpr hlong)]
    rfl
  · rw [if_neg hlong, decide_eq_true (Nat.not_lt.mp hlong)]
    cases files.get? (markerPlace place) <;> rfl

theorem create_of_exists (hfits : pathBytes (markerPlace place) ≤ FileTree.maxPathBytes)
    (hexists : (files.get? (markerPlace place)).isSome) :
    (create (pathOfLocation place) flag).run files =
      (.error (.alreadyInitialized (pathOfLocation (markerPlace place))), files) := by
  have hmarker := child_markerName (ht.isFileName_of_mem hplace)
  have hpath : files.pathExists ((pathOfLocation place).child markerName) = true := by
    rw [hmarker, pathExists_markerPlace ht hplace, decide_eq_true hfits, hexists]
    rfl
  rw [create_of_pathExists hpath, hmarker]

/-- The steps that are left where there is nothing. -/
theorem create_of_new
    (hnew : pathBytes (markerPlace place) ≤ FileTree.maxPathBytes →
      files.get? (markerPlace place) = none) :
    (create (pathOfLocation place) flag).run files =
      (do
        Action.onFiles .file (FileAction.createPath (pathOfLocation (markerPlace place)))
        saveConfiguration (pathOfLocation (configurationPlace place)) {}
        Action.onFiles .file (FileAction.createPath (pathOfLocation (graphsPlace place)))
        if flag then saveFile (pathOfLocation (examplePlace place)) exampleGraph
        return created place flag : Action Created).run files := by
  have hnames := ht.isFileName_of_mem hplace
  have hfree : files.pathExists (pathOfLocation (markerPlace place)) = false := by
    rw [pathExists_markerPlace ht hplace]
    by_cases hfits : pathBytes (markerPlace place) ≤ FileTree.maxPathBytes
    · rw [hnew hfits]
      simp
    · simp [hfits]
  rw [create]
  dsimp only
  rw [child_markerName hnames, run_bind_of_ok (Action.run_ask _ _), hfree,
    child_configurationName hnames, join_graphs hnames, child_exampleFileName hnames]
  cases flag <;> rfl

theorem create_of_long_marker (hlong : FileTree.maxPathBytes < pathBytes (markerPlace place)) :
    (create (pathOfLocation place) flag).run files = (.error (.file .nameTooLong), files) := by
  have hmarker := FileAction.createPath_child_of_long ht hplace isFileName_markerName hlong
  rw [create_of_new ht hplace flag fun hfits => absurd hfits (Nat.not_le.mpr hlong), run_bind,
    Action.run_onFiles, show (FileAction.createPath (pathOfLocation (markerPlace place))).run
      files = _
      from hmarker]
  rfl

variable (hnew : files.get? (markerPlace place) = none)
include hnew

theorem create_of_long_configuration (hfits : pathBytes (markerPlace place) ≤ FileTree.maxPathBytes)
    (hlong : FileTree.maxPathBytes < pathBytes (configurationPlace place)) :
    (create (pathOfLocation place) flag).run files =
      (.error (.file .nameTooLong), withMarker files place) := by
  have hmarker : (FileAction.createPath (pathOfLocation (markerPlace place))).run files =
      (.ok (), withMarker files place) :=
    FileAction.createPath_child ht hplace isFileName_markerName hfits hnew
  have hconfiguration : (FileAction.write (pathOfLocation (configurationPlace place))
      (Text.encodeUtf8 ({} : Configuration).text)).run (withMarker files place) =
      (.error .nameTooLong, withMarker files place) :=
    FileAction.write_child_of_long (isTree_withMarker ht hplace) get?_withMarker
      isFileName_configurationName _ hlong
  rw [create_of_new ht hplace flag fun _ => hnew,
    run_bind_of_ok (Action.run_onFiles_eq_ok_iff.mpr hmarker), run_bind, saveConfiguration,
    Action.run_onFiles, hconfiguration]
  rfl

/-- Once the configuration fits, only the example graph is left. -/
theorem create_of_fits (hfits : pathBytes (configurationPlace place) ≤ FileTree.maxPathBytes) :
    (create (pathOfLocation place) flag).run files =
      (do
        if flag then saveFile (pathOfLocation (examplePlace place)) exampleGraph
        return created place flag : Action Created).run (withGraphs files place) := by
  have hbytes := pathBytes_configurationPlace place
  have hmarker : (FileAction.createPath (pathOfLocation (markerPlace place))).run files =
      (.ok (), withMarker files place) :=
    FileAction.createPath_child ht hplace isFileName_markerName
      ((pathBytes_markerPlace place).trans_le (by omega)) hnew
  have hconfiguration : (saveConfiguration (pathOfLocation (configurationPlace place)) {}).run
      (withMarker files place) = (.ok (), withConfiguration files place) := by
    refine Action.run_onFiles_eq_ok_iff.mpr (FileAction.write_child (isTree_withMarker ht hplace)
      get?_withMarker isFileName_configurationName _ hfits ?_)
    rw [get?_withMarker_below ht hnew (List.cons_ne_nil _ _)]
    simp
  have hgraphs : (FileAction.createPath (pathOfLocation (graphsPlace place))).run
      (withConfiguration files place) = (.ok (), withGraphs files place) :=
    FileAction.createPath_child (isTree_withConfiguration ht hplace hnew) get?_withConfiguration
      isFileName_graphs ((pathBytes_graphsPlace place).trans_le (by omega))
      (get?_withConfiguration_graphsPlace ht hnew)
  rw [create_of_new ht hplace flag fun _ => hnew,
    run_bind_of_ok (Action.run_onFiles_eq_ok_iff.mpr hmarker),
    run_bind_of_ok hconfiguration, run_bind_of_ok (Action.run_onFiles_eq_ok_iff.mpr hgraphs)]

/-- With a configuration that fits, a workspace without the example is made. -/
theorem create_plain (hfits : pathBytes (configurationPlace place) ≤ FileTree.maxPathBytes) :
    (create (pathOfLocation place) false).run files =
      (.ok (created place false), withGraphs files place) := by
  rw [create_of_fits ht hplace false hnew hfits]
  rfl

omit ht hplace hnew in
/-- The example is written in a draft first. -/
theorem temporaryPath_examplePlace (hnames : ∀ name ∈ graphsPlace place, IsFileName name) :
    temporaryPath (pathOfLocation (examplePlace place)) = pathOfLocation (draftPlace place) := by
  have hexample : ∀ name ∈ graphsPlace place ++ [exampleFileName], IsFileName name :=
    isFileName_of_mem_concat hnames isFileName_exampleFileName
  have hsplit : FilePath.splitName exampleFileName = ("beach", some "jsonl") := by decide
  exact FilePath.withExtension_pathOfLocation hexample hsplit (by decide) (by decide)

theorem create_example (hfits : pathBytes (examplePlace place) ≤ FileTree.maxPathBytes) :
    (create (pathOfLocation place) true).run files =
      (.ok (created place true), withExample files place) := by
  have hbytes := pathBytes_examplePlace place
  have hgraphs := isTree_withGraphs ht hplace hnew
  have hnone (name : String) := get?_withGraphs_child ht hplace hnew name
  have hdraft : (withGraphs files place).get? (draftPlace place) = none := hnone "beach.tmp"
  have hsave := saveFile_run exampleGraph hgraphs get?_withGraphs isFileName_exampleFileName
    isFileName_draft (temporaryPath_examplePlace (hgraphs.isFileName_of_mem get?_withGraphs))
    ((pathBytes_draftPlace place).trans_le (by omega)) (by rw [hnone]; simp) hfits
    (by rw [hnone]; simp)
  rw [show graphsPlace place ++ ["beach.tmp"] = draftPlace place from rfl,
    FileTree.erase_eq_self hdraft] at hsave
  rw [create_of_fits ht hplace true hnew
    ((pathBytes_configurationPlace place).trans_le (by omega))]
  exact run_bind_of_ok hsave

/-- An example that does not fit is not there afterwards, and the draft of it is not either. -/
theorem create_of_long_example
    (hfits : pathBytes (configurationPlace place) ≤ FileTree.maxPathBytes)
    (hlong : FileTree.maxPathBytes < pathBytes (examplePlace place)) :
    ∃ path, (create (pathOfLocation place) true).run files =
      (.error (.graphFile path .nameTooLong), withGraphs files place) := by
  have hgraphs := isTree_withGraphs ht hplace hnew
  have hdraft : (withGraphs files place).get? (draftPlace place) = none :=
    get?_withGraphs_child ht hplace hnew "beach.tmp"
  have htemporary := temporaryPath_examplePlace (hgraphs.isFileName_of_mem get?_withGraphs)
  rw [create_of_fits ht hplace true hnew hfits]
  by_cases hlongDraft : FileTree.maxPathBytes < pathBytes (draftPlace place)
  · have hsave := saveFile_run_of_long_draft exampleGraph hgraphs get?_withGraphs
      isFileName_draft htemporary hlongDraft
    exact ⟨_, run_bind_of_error hsave⟩
  · have hsave := saveFile_run_of_long exampleGraph hgraphs get?_withGraphs
      isFileName_exampleFileName isFileName_draft htemporary (Nat.not_lt.mp hlongDraft)
      (by rw [← draftPlace, hdraft]; simp) hlong
    rw [show graphsPlace place ++ ["beach.tmp"] = draftPlace place from rfl,
      FileTree.erase_eq_self hdraft] at hsave
    exact ⟨_, run_bind_of_error hsave⟩

omit hnew

/-- What making a workspace can do: all of it, none of it, or the steps up to a path that is too
long. -/
theorem create_cases :
    (files.get? (markerPlace place) = none ∧
      pathBytes (lastPlace place flag) ≤ FileTree.maxPathBytes ∧
      (create (pathOfLocation place) flag).run files =
        (.ok (created place flag), initialized files place flag)) ∨
    (((files.get? (markerPlace place)).isSome ∨
        FileTree.maxPathBytes < pathBytes (markerPlace place)) ∧
      ∃ error, (create (pathOfLocation place) flag).run files = (.error error, files)) ∨
    (files.get? (markerPlace place) = none ∧
      pathBytes (markerPlace place) ≤ FileTree.maxPathBytes ∧
      FileTree.maxPathBytes < pathBytes (lastPlace place flag) ∧
      ∃ error, error.IsTooLong ∧
        (create (pathOfLocation place) flag).run files =
          (.error error, unfinished files place)) := by
  -- The paths are needed in this order, and the first that is too long decides.
  by_cases hlong : FileTree.maxPathBytes < pathBytes (markerPlace place)
  · exact .inr (.inl ⟨.inr hlong, _, create_of_long_marker ht hplace flag hlong⟩)
  have hfits := Nat.not_lt.mp hlong
  cases hmarker : files.get? (markerPlace place) with
  | some entry =>
    have hexists : (files.get? (markerPlace place)).isSome := by rw [hmarker]; rfl
    exact .inr (.inl ⟨.inl rfl, _, create_of_exists ht hplace flag hfits hexists⟩)
  | none =>
    by_cases hlongConfiguration : FileTree.maxPathBytes < pathBytes (configurationPlace place)
    · have hrun := create_of_long_configuration ht hplace flag hmarker hfits hlongConfiguration
      rw [unfinished, if_pos hlongConfiguration]
      refine .inr (.inr ⟨rfl, hfits, ?_, .file .nameTooLong, rfl, hrun⟩)
      exact Nat.lt_of_lt_of_le hlongConfiguration (pathBytes_configurationPlace_le place flag)
    have hfitsConfiguration := Nat.not_lt.mp hlongConfiguration
    cases flag with
    | false =>
      exact .inl ⟨rfl, hfitsConfiguration, create_plain ht hplace hmarker hfitsConfiguration⟩
    | true =>
      by_cases hlongExample : FileTree.maxPathBytes < pathBytes (examplePlace place)
      · obtain ⟨path, hrun⟩ :=
          create_of_long_example ht hplace hmarker hfitsConfiguration hlongExample
        rw [unfinished, if_neg hlongConfiguration]
        exact .inr (.inr ⟨rfl, hfits, hlongExample, .graphFile path .nameTooLong, rfl, hrun⟩)
      · have hfitsExample := Nat.not_lt.mp hlongExample
        exact .inl ⟨rfl, hfitsExample, create_example ht hplace hmarker hfitsExample⟩

end Run

end BindingGraph.Workspace
