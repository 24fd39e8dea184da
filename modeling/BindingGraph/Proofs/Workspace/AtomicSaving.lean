import BindingGraph.Proofs.Files.Attempts
import BindingGraph.Proofs.Files.Extensions
import BindingGraph.Proofs.Workspace.SaveLoad
import BindingGraph.Proofs.Workspace.Saving

/-!
# Saving or leaving

Saving a graph has three outcomes (`Saving`): the draft cannot be written, and nothing has changed;
the draft cannot be moved, and it is removed; or the draft has become the file. So a graph is saved
whole, or what was there before is still there (`saveFile_all_or_nothing`).
-/

namespace BindingGraph.Workspace

variable {path : FilePath} {graph : DependencyGraph} {files after : FileTree}
  {result : Except Error Unit} {parent : Location} {draft : String}

/-! ## The outcomes -/

/-- The draft for a path goes to a name in a directory where there is no directory. -/
structure IsDraft (files : FileTree) (path : FilePath) (parent : Location) (draft : String) :
    Prop where
  located : files.locateParent (temporaryPath path) = .ok (parent, .name draft false)
  short : ¬ FileTree.maxNameBytes < draft.utf8ByteSize
  free : files.get? (parent ++ [draft]) ≠ some .directory

/-- The tree with the draft of a graph in it. -/
def withDraft (files : FileTree) (parent : Location) (draft : String) (graph : DependencyGraph) :
    FileTree :=
  files.put (parent ++ [draft]) (.file (graphFileBytes graph))

/-- What saving a graph can come to. -/
inductive Saving (files : FileTree) (path : FilePath) (graph : DependencyGraph) :
    Except Error Unit → FileTree → Prop
  | unwritten {fault : FileError}
      (hwrite : (FileAction.write (temporaryPath path) (graphFileBytes graph)).run files =
        (.error fault, files)) :
      Saving files path graph (.error (.graphFile (temporaryPath path) fault)) files
  | unmoved {fault : FileError} {parent : Location} {draft : String}
      (hdraft : IsDraft files path parent draft)
      (hmove :
        (FileAction.moveFile (temporaryPath path) path).run (withDraft files parent draft graph) =
          (.error fault, withDraft files parent draft graph)) :
      Saving files path graph (.error (.graphFile path fault)) (files.erase (parent ++ [draft]))
  | moved {parent : Location} {draft : String} {after : FileTree}
      (hdraft : IsDraft files path parent draft)
      (hmove :
        (FileAction.moveFile (temporaryPath path) path).run (withDraft files parent draft graph) =
          (.ok (), after)) :
      Saving files path graph (.ok ()) after

theorem IsDraft.get?_withDraft (graph : DependencyGraph) :
    (withDraft files parent draft graph).get? (parent ++ [draft]) =
      some (.file (graphFileBytes graph)) :=
  FileTree.get?_put_child _ _ _

theorem IsDraft.keeps (h : IsDraft files path parent draft) (graph : DependencyGraph) :
    FileTree.Keeps files (withDraft files parent draft graph) :=
  FileTree.keeps_put_file h.free _

/-- What a failed saving leaves is what removing the draft leaves. -/
theorem run_removeDraft (temporary : FilePath) (error : Error) (files : FileTree) :
    (do
        tryCatch (Action.onFiles .file (FileAction.removeFile temporary)) fun _ => pure ()
        throw error : Action Unit).run files =
      (.error error, ((FileAction.removeFile temporary).run files).2) := by
  rw [run_bind, run_tryCatch, Action.run_onFiles]
  rcases (FileAction.removeFile temporary).run files with ⟨_ | _, cleared⟩ <;> rfl

/-- Where a draft cannot be written there is none to be removed. -/
theorem removeFile_of_write_error {temporary : FilePath} {bytes : List UInt8} {fault : FileError}
    (h : (FileAction.write temporary bytes).run files = (.error fault, files)) :
    ((FileAction.removeFile temporary).run files).2 = files := by
  rcases hremove : (FileAction.removeFile temporary).run files with ⟨error | ⟨⟩, cleared⟩
  · exact FileAction.careful_removeFile _ _ _ _ hremove
  · obtain ⟨parent, name, old, hparent, hshort, hfile, -⟩ := FileAction.removeFile_ok hremove
    have hwrite := FileAction.write_run hparent hshort bytes (by rw [hfile]; simp)
    rw [h] at hwrite
    cases hwrite

theorem IsDraft.removeFile (h : IsDraft files path parent draft) (graph : DependencyGraph) :
    ((FileAction.removeFile (temporaryPath path)).run (withDraft files parent draft graph)).2 =
      files.erase (parent ++ [draft]) := by
  have hlocated := (h.keeps graph).locateParent_eq h.located
  rw [FileAction.removeFile_run hlocated h.short (IsDraft.get?_withDraft graph)]
  exact FileTree.erase_put _ _ _

theorem saveFile_run_eq (files : FileTree) (path : FilePath) (graph : DependencyGraph) :
    (saveFile path graph).run files =
      match (FileAction.write (temporaryPath path) (graphFileBytes graph)).run files with
      | (.error fault, left) =>
        (.error (.graphFile (temporaryPath path) fault),
          ((FileAction.removeFile (temporaryPath path)).run left).2)
      | (.ok (), written) =>
        match (FileAction.moveFile (temporaryPath path) path).run written with
        | (.error fault, left) =>
          (.error (.graphFile path fault),
            ((FileAction.removeFile (temporaryPath path)).run left).2)
        | (.ok (), after) => (.ok (), after) := by
  rw [saveFile, run_tryCatch, run_bind, Action.run_onFiles]
  simp only [run_removeDraft]
  unfold graphFileBytes
  rcases (FileAction.write (temporaryPath path) (Text.encodeUtf8 (graphFileText graph))).run files
    with ⟨fault | ⟨⟩, written⟩
  · rfl
  · dsimp only [Except.mapError]
    rw [Action.run_onFiles]
    rcases (FileAction.moveFile (temporaryPath path) path).run written with ⟨fault | ⟨⟩, left⟩ <;>
      rfl

theorem saving_run (files : FileTree) (path : FilePath) (graph : DependencyGraph) :
    Saving files path graph ((saveFile path graph).run files).1
      ((saveFile path graph).run files).2 := by
  rw [saveFile_run_eq]
  rcases hwrite : (FileAction.write (temporaryPath path) (graphFileBytes graph)).run files with
    ⟨fault | ⟨⟩, written⟩
  · obtain rfl := FileAction.careful_write _ _ _ _ _ hwrite
    dsimp only
    rw [removeFile_of_write_error hwrite]
    exact .unwritten hwrite
  · obtain ⟨parent, draft, hlocated, hshort, hfree, hwritten⟩ := FileAction.write_ok hwrite
    have hdraft : IsDraft files path parent draft := ⟨hlocated, hshort, hfree⟩
    obtain rfl : written = withDraft files parent draft graph := hwritten
    dsimp only
    rcases hmove : (FileAction.moveFile (temporaryPath path) path).run
      (withDraft files parent draft graph)
      with ⟨fault | ⟨⟩, left⟩
    · obtain rfl := FileAction.careful_moveFile _ _ _ _ _ hmove
      dsimp only
      rw [hdraft.removeFile graph]
      exact .unmoved hdraft hmove
    · exact .moved hdraft hmove

/-! ## The draft and the path -/

section Draft

variable {place : Location} {name : String} (h : IsDraft files path parent draft)
include h

/-- A path that ends in the name of its own draft is the draft's path. -/
theorem IsDraft.temporaryPath_eq
    (hpath : files.locateParent path = .ok (place, .name draft false)) :
    temporaryPath path = path := by
  obtain ⟨front, hparts, hname, hback⟩ := FileTree.exists_parts_of_locateParent hpath
  obtain ⟨other, hother, -, -⟩ := FileTree.exists_parts_of_locateParent h.located
  obtain rfl : path = ⟨front ++ [draft]⟩ := congrArg FilePath.mk hparts
  obtain ⟨last, hlast⟩ := FilePath.exists_withExtension_eq front hname hback "tmp"
  rw [temporaryPath, hlast] at hother ⊢
  rw [(List.append_inj' hother rfl).2]

theorem IsDraft.parts_ne_nil : path.parts ≠ [] := by
  intro hnil
  obtain ⟨front, hparts, -, -⟩ := FileTree.exists_parts_of_locateParent h.located
  rw [temporaryPath, FilePath.withExtension_of_parts_eq_nil hnil, hnil] at hparts
  simp at hparts

/-- A draft that cannot be moved to the path was not what the path leads to. -/
theorem IsDraft.entryAt_erase (ht : files.IsTree) {fault : FileError}
    (hmove :
      (FileAction.moveFile (temporaryPath path) path).run (withDraft files parent draft graph) =
        (.error fault, after)) :
    ((files.erase (parent ++ [draft])).entryAt path).toOption = (files.entryAt path).toOption := by
  by_cases hlocate : files.locate path = .ok (parent ++ [draft])
  · cases hentry : files.get? (parent ++ [draft]) with
    | none => rw [FileTree.erase_eq_self hentry]
    | some entry =>
      cases entry with
      | directory => exact absurd hentry h.free
      | file bytes =>
        -- The path is that of the draft, and a file can be moved to where it is.
        obtain ⟨place, name, hplace, hpath, -⟩ :=
          ht.exists_locateParent h.parts_ne_nil hlocate hentry
        obtain ⟨rfl, hname⟩ := List.append_inj' hplace rfl
        obtain rfl : draft = name := by simpa using hname
        have hsame := h.temporaryPath_eq hpath
        have hlocated := (h.keeps graph).locateParent_eq h.located
        have hself := FileAction.moveFile_self_run hlocated h.short (IsDraft.get?_withDraft graph)
        rw [hsame] at hself hmove
        rw [hself] at hmove
        cases hmove
  · exact FileTree.entryAt_erase h.free hlocate

theorem IsDraft.entryAt_temporaryPath {after : FileTree} (hkeeps : FileTree.Keeps files after)
    (hnone : after.get? (parent ++ [draft]) = none) :
    after.entryAt (temporaryPath path) = .error .notFound :=
  FileTree.entryAt_of_locateParent_none (hkeeps.locateParent_eq h.located) h.short hnone

end Draft

theorem not_isFile_temporaryPath (ht : files.IsTree) {bytes : List UInt8} {fault : FileError}
    (hwrite : (FileAction.write (temporaryPath path) bytes).run files = (.error fault, files))
    (hne : temporaryPath path ≠ path) : files.isFile (temporaryPath path) = false := by
  have hparts : (temporaryPath path).parts ≠ [] := by
    apply FilePath.withExtension_parts_ne_nil
    intro hnil
    exact hne (FilePath.withExtension_of_parts_eq_nil hnil "tmp")
  rw [FileTree.isFile]
  split
  · rename_i old hentry
    obtain ⟨place, hlocate, hfile⟩ := FileTree.entryAt_eq_ok_iff.mp hentry
    obtain ⟨parent, draft, rfl, hlocated, hshort⟩ := ht.exists_locateParent hparts hlocate hfile
    have hdone := FileAction.write_run hlocated hshort bytes (by rw [hfile]; simp)
    rw [hwrite] at hdone
    cases hdone
  · rfl

/-- A path ends in a name, and this is the location of the name, be there anything or not. -/
def Names (files : FileTree) (path : FilePath) (place : Location) : Prop :=
  ∃ parent name slash, files.locateParent path = .ok (parent, .name name slash) ∧
    place = parent ++ [name]

theorem IsDraft.names (h : IsDraft files path parent draft) :
    Names files (temporaryPath path) (parent ++ [draft]) :=
  ⟨parent, draft, false, h.located, rfl⟩

section Moved

variable (h : IsDraft files path parent draft)
  (hmove :
    (FileAction.moveFile (temporaryPath path) path).run (withDraft files parent draft graph) =
      (.ok (), after))
include h hmove

/-- What the tree is like when the draft has been moved. -/
theorem IsDraft.moved :
    ∃ place name, files.locateParent path = .ok (place, .name name false) ∧
      files.get? (place ++ [name]) ≠ some .directory ∧
      after = (files.erase (parent ++ [draft])).put (place ++ [name])
        (.file (graphFileBytes graph)) := by
  obtain ⟨oldParent, oldName, place, name, bytes, hold, hnew, hmoved, -, hplace, rfl⟩ :=
    FileAction.moveFile_ok hmove
  have hlocated := (h.keeps graph).locateParent_eq h.located
  rw [hold] at hlocated
  cases hlocated
  rw [IsDraft.get?_withDraft] at hmoved
  cases hmoved
  refine ⟨place, name, ?_, fun hdirectory => hplace ((h.keeps graph).directory _ hdirectory), ?_⟩
  · exact (FileTree.keeps_of_put_file files parent draft _).locateParent_eq hnew
  · rw [withDraft, FileTree.erase_put]

/-- The draft is gone from where it was. -/
theorem IsDraft.entryAt_moved (hne : temporaryPath path ≠ path) :
    after.entryAt (temporaryPath path) = .error .notFound := by
  obtain ⟨place, name, hpath, hplace, rfl⟩ := h.moved hmove
  have haway : parent ++ [draft] ≠ place ++ [name] := by
    intro heq
    obtain ⟨rfl, hname⟩ := List.append_inj' heq rfl
    obtain rfl : draft = name := by simpa using hname
    exact hne (h.temporaryPath_eq hpath)
  apply h.entryAt_temporaryPath (FileTree.keeps_move_file h.free hplace _)
  rw [FileTree.get?_put_of_ne haway, FileTree.get?_erase_self (by simp)]

theorem IsDraft.get?_moved {other : Location} (hpath : ¬ Names files path other)
    (htemporary : ¬ Names files (temporaryPath path) other) :
    after.get? other = files.get? other := by
  obtain ⟨place, name, hlocated, -, rfl⟩ := h.moved hmove
  have hother : other ≠ place ++ [name] := by
    rintro rfl
    exact hpath ⟨place, name, false, hlocated, rfl⟩
  have hdraft : other ≠ parent ++ [draft] := by
    rintro rfl
    exact htemporary h.names
  rw [FileTree.get?_put_of_ne hother, FileTree.get?_erase_of_ne hdraft]

end Moved

/-! ## All or nothing -/

/-- The record of a node. -/
def recordOf (graph : DependencyGraph) (node : String) : Record := ⟨node, graph.dependencies node⟩

theorem graphFileText_eq (graph : DependencyGraph) :
    graphFileText graph =
      String.join (graph.nodes.map fun node => (recordOf graph node).text ++ "\n") := by
  rw [graphFileText, records, DependencyGraph.bindings, List.map_map, List.map_map]
  rfl

/-- **A graph is saved whole, or what was there is still there.** After saving a graph has
succeeded, its file holds one line for each node, in declaration order, which is the node's record;
there is no draft, unless the file is its own; and nothing else has changed. After it has failed,
the path finds what it did before; no draft has been left, unless it is the file itself; and nothing
but the draft has changed. -/
theorem saveFile_all_or_nothing (files after : FileTree) (path : FilePath) (graph : DependencyGraph)
    (result : Except Error Unit) (ht : files.IsTree)
    (h : (saveFile path graph).run files = (result, after)) :
    (result = .ok () →
      after.entryAt path = .ok (.file (Text.encodeUtf8
        (String.join (graph.nodes.map fun node => (recordOf graph node).text ++ "\n")))) ∧
      (∀ node ∈ graph.nodes, '\n' ∉ (recordOf graph node).text.toList ∧
        Record.decode (recordOf graph node).text = .ok (recordOf graph node)) ∧
      (temporaryPath path ≠ path → after.entryAt (temporaryPath path) = .error .notFound) ∧
      ∀ place, ¬ Names files path place → ¬ Names files (temporaryPath path) place →
        after.get? place = files.get? place) ∧
    ∀ error, result = .error error →
      (after.entryAt path).toOption = (files.entryAt path).toOption ∧
      (temporaryPath path ≠ path → after.isFile (temporaryPath path) = false) ∧
      ∀ place, ¬ Names files (temporaryPath path) place → after.get? place = files.get? place := by
  have houtcome := saving_run files path graph
  rw [h] at houtcome
  dsimp only at houtcome
  cases houtcome with
  | unwritten hwrite =>
    refine ⟨fun hok => (by cases hok), fun error _ => ⟨rfl, ?_, fun _ _ => rfl⟩⟩
    exact not_isFile_temporaryPath ht hwrite
  | @unmoved _ parent draft hdraft hmove =>
    refine ⟨fun hok => (by cases hok), fun error _ => ⟨hdraft.entryAt_erase ht hmove, ?_, ?_⟩⟩
    · intro _
      rw [FileTree.isFile, hdraft.entryAt_temporaryPath (FileTree.keeps_erase hdraft.free)
        (FileTree.get?_erase_self (by simp))]
    · intro place hplace
      have hne : place ≠ parent ++ [draft] := by
        rintro rfl
        exact hplace hdraft.names
      exact FileTree.get?_erase_of_ne hne
  | @moved parent draft _ hdraft hmove =>
    refine ⟨fun _ => ⟨?_, ?_, ?_, ?_⟩, fun error herror => (by cases herror)⟩
    · rw [← graphFileText_eq]
      exact entryAt_of_saveFile h
    · intro node _
      exact ⟨(recordOf graph node).isLine_text.no_lineFeed, (recordOf graph node).decode_text⟩
    · exact fun hne => hdraft.entryAt_moved hmove hne
    · intro place hpath hplace
      exact hdraft.get?_moved hmove hpath hplace

/-! ## A directory in the way -/

/-- A graph file, and a directory that is named like one, beside what looks like its draft. -/
def crowded : FileTree :=
  ⟨[(["g.jsonl"], .file [1]), (["d.jsonl"], .directory), (["d.jsonl", "x"], .file [2]),
    (["d.tmp"], .file [3])], []⟩

theorem saveFile_crowded (graph : DependencyGraph) :
    (saveFile ⟨["g.jsonl"]⟩ graph).run crowded =
        (.ok (), crowded.put ["g.jsonl"] (.file (graphFileBytes graph))) ∧
      (saveFile ⟨["d.jsonl"]⟩ graph).run crowded =
        (.error (.graphFile ⟨["d.jsonl"]⟩ .isADirectory), crowded.erase ["d.tmp"]) := by
  unfold saveFile graphFileBytes
  generalize Text.encodeUtf8 (graphFileText graph) = bytes
  exact ⟨by cbv, by cbv⟩

/-- The graph file is replaced. The directory stays, at the cost of what was at the place of
the draft. -/
theorem saveFile_all_or_nothing_crowded :
    crowded.IsTree ∧
      (crowded.put ["g.jsonl"] (.file (graphFileBytes awkward))).entryAt ⟨["g.tmp"]⟩ =
        .error .notFound ∧
      ((crowded.erase ["d.tmp"]).entryAt ⟨["d.jsonl"]⟩).toOption = some .directory ∧
      (crowded.erase ["d.tmp"]).isFile ⟨["d.tmp"]⟩ = false ∧
      (crowded.erase ["d.tmp"]).get? ["g.jsonl"] = some (.file [1]) := by
  have ht : crowded.IsTree := by decide
  obtain ⟨hsaved, hrefused⟩ := saveFile_crowded awkward
  have hdraft : temporaryPath ⟨["g.jsonl"]⟩ = ⟨["g.tmp"]⟩ := by cbv
  have hother : temporaryPath ⟨["d.jsonl"]⟩ = ⟨["d.tmp"]⟩ := by cbv
  obtain ⟨-, -, hmoved, -⟩ := (saveFile_all_or_nothing crowded _ _ awkward _ ht hsaved).1 rfl
  obtain ⟨hstays, hremoved, helsewhere⟩ :=
    (saveFile_all_or_nothing crowded _ _ awkward _ ht hrefused).2 _ rfl
  rw [hdraft] at hmoved
  rw [hother] at hremoved helsewhere
  refine ⟨ht, hmoved (by decide), hstays.trans (by cbv), hremoved (by decide), ?_⟩
  refine (helsewhere ["g.jsonl"] ?_).trans rfl
  rintro ⟨parent, name, slash, hlocated, hplace⟩
  have hlocate : crowded.locateParent ⟨["d.tmp"]⟩ = .ok ([], .name "d.tmp" false) := by cbv
  rw [hlocate] at hlocated
  cases hlocated
  exact absurd hplace (by decide)

end BindingGraph.Workspace
