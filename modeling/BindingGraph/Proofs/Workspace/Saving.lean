import BindingGraph.Proofs.Files.Places
import BindingGraph.Workspace.GraphFile

/-!
# Saving a graph in a directory

What saving does to a directory depends on whether the paths of the draft and of the file itself are
too long (`saveFile_run`, `saveFile_run_of_long_draft`, `saveFile_run_of_long`). A draft that has
been written and cannot be moved is removed again.
-/

namespace BindingGraph.Workspace

open Console (pathOfLocation)

variable {files : FileTree} {place : Location} {name draft : String}

/-- The bytes of a graph file. -/
def graphFileBytes (graph : DependencyGraph) : List UInt8 := Text.encodeUtf8 (graphFileText graph)

section Saving

variable (graph : DependencyGraph) (ht : files.IsTree) (hplace : files.get? place = some .directory)
  (hname : IsFileName name) (hdraft : IsFileName draft)
  (htemporary : temporaryPath (pathOfLocation (place ++ [name])) =
    pathOfLocation (place ++ [draft]))
include htemporary

/-- The steps of saving in a directory. -/
theorem saveFile_eq :
    saveFile (pathOfLocation (place ++ [name])) graph =
      (tryCatch
        (do
          Action.onFiles (.graphFile (pathOfLocation (place ++ [draft])))
            (FileAction.write (pathOfLocation (place ++ [draft])) (graphFileBytes graph))
          Action.onFiles (.graphFile (pathOfLocation (place ++ [name])))
            (FileAction.moveFile (pathOfLocation (place ++ [draft]))
              (pathOfLocation (place ++ [name]))))
        fun error => do
          tryCatch (Action.onFiles .file
            (FileAction.removeFile (pathOfLocation (place ++ [draft]))))
            fun _ => pure ()
          throw error : Action Unit) := by
  rw [saveFile, htemporary]
  rfl

include ht hplace hdraft

theorem saveFile_run_of_long_draft (hlong : FileTree.maxPathBytes < pathBytes (place ++ [draft])) :
    (saveFile (pathOfLocation (place ++ [name])) graph).run files =
      (.error (.graphFile (pathOfLocation (place ++ [draft])) .nameTooLong), files) := by
  have hwrite := FileAction.write_child_of_long ht hplace hdraft (graphFileBytes graph) hlong
  have hremove := FileAction.removeFile_child_of_long ht hplace hdraft hlong
  rw [saveFile_eq graph htemporary, run_tryCatch, run_bind, Action.run_onFiles, hwrite]
  show ((tryCatch _ _ : Action Unit) >>= _).run files = _
  rw [run_bind, run_tryCatch, Action.run_onFiles, hremove]
  rfl

variable (hfitsDraft : pathBytes (place ++ [draft]) ≤ FileTree.maxPathBytes)
  (hnewDraft : files.get? (place ++ [draft]) ≠ some .directory)
include hfitsDraft hnewDraft

omit htemporary in
/-- What the draft changes: it lies in the same directory of a tree. -/
theorem write_draft :
    ∃ written, written = files.put (place ++ [draft]) (.file (graphFileBytes graph)) ∧
    (FileAction.write (pathOfLocation (place ++ [draft])) (graphFileBytes graph)).run files =
      (.ok (), written) ∧
    written.IsTree ∧ written.get? place = some .directory ∧
    written.get? (place ++ [draft]) = some (.file (graphFileBytes graph)) ∧
    written.erase (place ++ [draft]) = files.erase (place ++ [draft]) :=
  ⟨_, rfl, FileAction.write_child ht hplace hdraft _ hfitsDraft hnewDraft,
    ht.put hplace hdraft (.inr hnewDraft),
    (FileTree.keeps_put_file hnewDraft _).directory place hplace,
    FileTree.get?_put_child place draft _, FileTree.erase_put files _ _⟩

include hname

theorem saveFile_run (hfits : pathBytes (place ++ [name]) ≤ FileTree.maxPathBytes)
    (hnew : files.get? (place ++ [name]) ≠ some .directory) :
    (saveFile (pathOfLocation (place ++ [name])) graph).run files =
      (.ok (), (files.erase (place ++ [draft])).put (place ++ [name])
        (.file (graphFileBytes graph))) := by
  obtain ⟨written, rfl, hwrite, htree, hkept, hfile, herase⟩ :=
    write_draft graph ht hplace hdraft hfitsDraft hnewDraft
  have hfree : (files.put (place ++ [draft]) (.file (graphFileBytes graph))).get?
      (place ++ [name]) ≠
      some .directory := by
    by_cases heq : place ++ [name] = place ++ [draft]
    · rw [heq, hfile]
      simp
    · rw [FileTree.get?_put_of_ne heq]
      exact hnew
  have hmove := FileAction.moveFile_child htree hkept hdraft hname hfitsDraft hfits hfile hfree
  rw [herase] at hmove
  rw [saveFile_eq graph htemporary, run_tryCatch, run_bind, Action.run_onFiles, hwrite]
  dsimp only [Except.mapError]
  rw [Action.run_onFiles, hmove]
  rfl

theorem saveFile_run_of_long (hlong : FileTree.maxPathBytes < pathBytes (place ++ [name])) :
    (saveFile (pathOfLocation (place ++ [name])) graph).run files =
      (.error (.graphFile (pathOfLocation (place ++ [name])) .nameTooLong),
        files.erase (place ++ [draft])) := by
  obtain ⟨written, -, hwrite, htree, hkept, hfile, herase⟩ :=
    write_draft graph ht hplace hdraft hfitsDraft hnewDraft
  have hmove := FileAction.moveFile_child_of_long htree hkept hdraft hname hlong
  have hremove := FileAction.removeFile_child htree hkept hdraft hfitsDraft hfile
  rw [herase] at hremove
  rw [saveFile_eq graph htemporary, run_tryCatch, run_bind, Action.run_onFiles, hwrite]
  dsimp only [Except.mapError]
  rw [Action.run_onFiles, hmove]
  dsimp only [Except.mapError]
  rw [run_bind, run_tryCatch, Action.run_onFiles, hremove]
  rfl

end Saving

end BindingGraph.Workspace
