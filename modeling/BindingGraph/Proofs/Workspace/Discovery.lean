import BindingGraph.Proofs.Workspace.Initialize

/-!
# Making and finding a workspace

Making a workspace and finding one ask different questions about the marking name: the one whether
anything has it, the other whether a directory has. So a directory is refused as a workspace already
exactly if it is found as one or a file has the marking name (`create_refuses_iff`). Every other
step of either only fails for reasons that have nothing to do with it (`Action.Indifferent`), so
these refusals have no other source.
-/

namespace BindingGraph.Workspace

open Console (pathOfLocation)

variable {files : FileTree} {base path : FilePath}

/-! ## Steps that do not care -/

/-- A failure that says whether there is a workspace. -/
def Error.IsVerdict : Error → Prop
  | .notInitialized => True
  | .alreadyInitialized _ => True
  | _ => False

theorem Error.not_isVerdict_file (fault : FileError) : ¬ (Error.file fault).IsVerdict := id

theorem Error.not_isVerdict_graphFile (path : FilePath) (fault : FileError) :
    ¬ (Error.graphFile path fault).IsVerdict := id

namespace Action

variable {α β : Type}

/-- A step that never fails because there is a workspace, or because there is none. -/
def Indifferent (step : Action α) : Prop :=
  ∀ files files' error, step.run files = (.error error, files') → ¬ error.IsVerdict

theorem indifferent_pure (a : α) : Indifferent (pure a : Action α) := by
  intro files files' error h
  cases h

theorem indifferent_get : Indifferent (get : Action FileTree) := by
  intro files files' error h
  cases h

theorem indifferent_throw {error : Error} (h : ¬ error.IsVerdict) :
    Indifferent (throw error : Action α) := by
  rintro files files' error' ⟨⟩
  exact h

theorem indifferent_onFiles {report : FileError → Error} (h : ∀ fault, ¬ (report fault).IsVerdict)
    (step : FileAction α) : Indifferent (onFiles report step) := by
  intro files files' error hrun
  rw [run_onFiles] at hrun
  rcases hstep : (step.run files).1 with fault | a
  · rw [hstep] at hrun
    cases hrun
    exact h fault
  · rw [hstep] at hrun
    cases hrun

theorem Indifferent.bind {step : Action α} {next : α → Action β} (h : step.Indifferent)
    (hnext : ∀ a, (next a).Indifferent) : (step >>= next).Indifferent := by
  intro files files' error hrun
  rw [run_bind] at hrun
  rcases hstep : step.run files with ⟨fault | a, middle⟩
  · rw [hstep] at hrun
    cases hrun
    exact h _ _ _ hstep
  · rw [hstep] at hrun
    exact hnext a _ _ _ hrun

theorem Indifferent.tryCatch {step : Action α} {handler : Error → Action α}
    (hstep : step.Indifferent) (h : ∀ error, ¬ error.IsVerdict → (handler error).Indifferent) :
    (tryCatch step handler).Indifferent := by
  intro files files' error hrun
  rw [run_tryCatch] at hrun
  rcases hfirst : step.run files with ⟨fault | a, middle⟩
  · rw [hfirst] at hrun
    exact h fault (hstep _ _ _ hfirst) _ _ _ hrun
  · rw [hfirst] at hrun
    cases hrun

end Action

open BindingGraph.Workspace.Action
  (indifferent_pure indifferent_get indifferent_throw indifferent_onFiles)
open Error (not_isVerdict_file not_isVerdict_graphFile)

theorem indifferent_loadConfiguration (path : FilePath) : (loadConfiguration path).Indifferent := by
  refine (indifferent_onFiles not_isVerdict_file _).bind fun text => ?_
  cases Configuration.ofText text with
  | ok configuration => exact indifferent_pure configuration
  | error fault => exact indifferent_throw id

theorem indifferent_loadSingle (path : FilePath) : (loadSingle path).Indifferent := by
  have hfile : (loadFile path).Indifferent :=
    (indifferent_onFiles (not_isVerdict_graphFile path) _).bind fun _ => indifferent_pure _
  exact hfile.bind fun _ => indifferent_pure _

theorem indifferent_loadFiles (paths : List FilePath) : (loadFiles paths).Indifferent := by
  induction paths with
  | nil => exact indifferent_pure _
  | cons path paths ih =>
    exact (indifferent_loadSingle path).bind fun _ => ih.bind fun _ => indifferent_pure _

theorem indifferent_loadDirectory (directory : FilePath) :
    (loadDirectory directory).Indifferent := by
  refine (indifferent_onFiles (not_isVerdict_graphFile directory) _).bind fun names => ?_
  refine indifferent_get.bind fun files => ?_
  cases graphFileNames files directory names with
  | nil => exact indifferent_throw id
  | cons name names => exact indifferent_loadFiles _

theorem indifferent_loadFrom (path : FilePath) : (loadFrom path).Indifferent := by
  refine (indifferent_get.bind fun _ => indifferent_pure _).bind fun isFile => ?_
  cases isFile with
  | true => exact indifferent_loadSingle path
  | false => exact indifferent_loadDirectory path

theorem indifferent_load (path : FilePath) (settings : Settings) :
    (Opened.load path settings).Indifferent :=
  (indifferent_loadFrom path).bind fun _ => indifferent_pure _

theorem indifferent_saveFile (path : FilePath) (graph : DependencyGraph) :
    (saveFile path graph).Indifferent := by
  refine Action.Indifferent.tryCatch ?_ fun error herror => ?_
  · exact (indifferent_onFiles (not_isVerdict_graphFile _) _).bind fun _ =>
      indifferent_onFiles (not_isVerdict_graphFile _) _
  · -- Whether or not the draft can be removed, the failure stays the same.
    have hremove := (indifferent_onFiles not_isVerdict_file
      (FileAction.removeFile (temporaryPath path))).tryCatch fun _ _ => indifferent_pure ()
    exact hremove.bind fun _ => indifferent_throw herror

/-! ## Finding -/

/-- A directory is the nearest workspace to itself exactly if it is one. -/
theorem findRoot?_eq_self_iff : findRoot? files base = some base ↔ isRoot files base = true := by
  constructor
  · exact List.find?_some
  · intro hroot
    rw [findRoot?, maxParents, ancestors]
    split
    · rw [List.find?_cons, hroot]
    · rw [List.find?_cons, hroot]

/-- Opening reports that there is no workspace exactly if none is found. -/
theorem ofDirectory_notInitialized_iff :
    ((Opened.ofDirectory base none).run files).1 = .error .notInitialized ↔
      findRoot? files base = none := by
  cases hroot : findRoot? files base with
  | none =>
    have hsource : (Opened.source base none).run files = (.error .notInitialized, files) := by
      rw [Opened.source, run_bind_of_ok run_get, hroot]
      rfl
    rw [Opened.ofDirectory, run_bind_of_error hsource]
    exact iff_of_true rfl rfl
  | some root =>
    refine iff_of_false (fun herror => ?_) (by simp)
    rw [Opened.ofDirectory, Opened.source, bind_assoc, run_bind_of_ok run_get, hroot] at herror
    have hopens : (do
        let configuration ← loadConfiguration ((root.child markerName).child configurationName)
        return (root.join (.ofText configuration.graphs), configuration.engine) :
        Action (FilePath × Settings)).Indifferent :=
      (indifferent_loadConfiguration _).bind fun _ => indifferent_pure _
    exact hopens.bind (fun _ => indifferent_load _ _) files _ _ (Prod.ext herror rfl) trivial

/-! ## Making -/

/-- Making a workspace is not refused where nothing has the marking name. -/
theorem not_isVerdict_of_create (h : files.pathExists (base.child markerName) = false)
    {withExample : Bool} {error : Error} {files' : FileTree}
    (hrun : (create base withExample).run files = (.error error, files')) : ¬ error.IsVerdict := by
  rw [create] at hrun
  dsimp only at hrun
  rw [run_bind_of_ok (Action.run_ask _ _), h, if_neg Bool.false_ne_true] at hrun
  -- Each step that is left works on files.
  refine (?_ : Action.Indifferent _) _ _ _ hrun
  refine (indifferent_onFiles not_isVerdict_file _).bind fun _ => ?_
  refine (indifferent_onFiles not_isVerdict_file _).bind fun _ => ?_
  refine (indifferent_onFiles not_isVerdict_file _).bind fun _ => ?_
  cases withExample with
  | true => exact (indifferent_saveFile _ _).bind fun _ => indifferent_pure _
  | false => exact indifferent_pure _

theorem create_refuses_iff_pathExists {withExample : Bool} {found : FilePath} :
    ((create base withExample).run files).1 = .error (.alreadyInitialized found) ↔
      found = base.child markerName ∧ files.pathExists found = true := by
  constructor
  · intro herror
    cases hexists : files.pathExists (base.child markerName) with
    | true =>
      rw [create_of_pathExists hexists] at herror
      cases herror
      exact ⟨rfl, hexists⟩
    | false => exact absurd trivial (not_isVerdict_of_create hexists (Prod.ext herror rfl))
  · rintro ⟨rfl, hexists⟩
    rw [create_of_pathExists hexists]

/-! ## Both -/

/-- What a path leads to is a directory or a file. -/
theorem pathExists_iff :
    files.pathExists path = true ↔ files.isDirectory path = true ∨ files.isFile path = true := by
  rw [FileTree.pathExists, FileTree.isDirectory, FileTree.isFile]
  rcases files.entryAt path with fault | (_ | bytes) <;> simp [Except.isOk, Except.toBool]

theorem not_isFile_of_isDirectory (h : files.isDirectory path = true) :
    ¬ files.isFile path = true := by
  unfold FileTree.isDirectory at h
  unfold FileTree.isFile
  split at h
  · rename_i hentry
    simp [hentry]
  · cases h

/-- **Making and finding a workspace.** Making a workspace in a directory is refused because there
is one already exactly if finding one from there gives the directory itself, or a file has the name
of the marking directory; then nothing is changed, and what has this name is reported. A file with
this name is no workspace to be found, so where opening reports that there is none, making one is
refused exactly if there is such a file. -/
theorem create_refuses_iff (files : FileTree) (base : FilePath) (withExample : Bool) :
    let marker := base.child markerName
    let answer := (create base withExample).run files
    let refused := ∃ found, answer.1 = .error (.alreadyInitialized found)
    (refused ↔ findRoot? files base = some base ∨ files.isFile marker = true) ∧
    (refused → answer = (.error (.alreadyInitialized marker), files)) ∧
    (files.isFile marker = true → findRoot? files base ≠ some base) ∧
    (((Opened.ofDirectory base none).run files).1 = .error .notInitialized →
      (refused ↔ files.isFile marker = true)) := by
  intro marker answer refused
  have hrefused : refused ↔ files.pathExists marker = true := by
    constructor
    · rintro ⟨found, hfound⟩
      obtain ⟨rfl, hexists⟩ := create_refuses_iff_pathExists.mp hfound
      exact hexists
    · intro hexists
      exact ⟨marker, create_refuses_iff_pathExists.mpr ⟨rfl, hexists⟩⟩
  have hiff : refused ↔ findRoot? files base = some base ∨ files.isFile marker = true := by
    rw [hrefused, pathExists_iff, findRoot?_eq_self_iff, isRoot]
  refine ⟨hiff, ?_, ?_, ?_⟩
  · intro h
    exact create_of_pathExists (hrefused.mp h) withExample
  · intro hfile hself
    exact not_isFile_of_isDirectory (findRoot?_eq_self_iff.mp hself) hfile
  · intro hopen
    rw [hiff, ofDirectory_notInitialized_iff.mp hopen]
    simp

/-- Where a file has the marking name, opening advises to make a workspace, and making one
is refused. -/
theorem create_refuses_for_file :
    let files : FileTree := ⟨[(["w", ".tangle"], .file []), (["w"], .directory)], []⟩
    let base := pathOfLocation ["w"]
    files.isDirectory base = true ∧
    ((Opened.ofDirectory base none).run files).1 = .error .notInitialized ∧
    ((create base false).run files).1 = .error (.alreadyInitialized (base.child markerName)) ∧
    ¬ ((∃ found, ((create base false).run files).1 = .error (.alreadyInitialized found)) ↔
      findRoot? files base = some base) := by
  intro files base
  have htree : files.IsTree := by decide +kernel
  have hplace : files.get? ["w"] = some .directory := by decide
  have hrun := create_of_exists htree hplace false (by decide) (by decide)
  have hcreate : ((create base false).run files).1 =
      .error (.alreadyInitialized (base.child markerName)) := by
    rw [hrun, child_markerName (htree.isFileName_of_mem hplace)]
  have hroots : ∀ place ∈ [["w"], []], isRoot files (pathOfLocation place) = false := by
    intro place hmem
    have hdirectory : files.get? place = some .directory := by
      revert place
      decide
    rw [Bool.eq_false_iff, ne_eq, isRoot_pathOfLocation htree hdirectory]
    revert place
    decide
  have hnone : findRoot? files base = none := by
    have hancestors : ancestors base maxParents = [pathOfLocation ["w"], pathOfLocation []] := by
      decide +kernel
    rw [findRoot?, hancestors, List.find?_cons, hroots _ (by decide), List.find?_cons,
      hroots _ (by decide)]
    rfl
  refine ⟨?_, ofDirectory_notInitialized_iff.mpr hnone, hcreate, fun hiff => ?_⟩
  · rw [FileTree.isDirectory, htree.entryAt_eq hplace (by decide)]
  · have hself := hiff.mp ⟨_, hcreate⟩
    rw [hnone] at hself
    cases hself

end BindingGraph.Workspace
