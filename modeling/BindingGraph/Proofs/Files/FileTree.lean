import BindingGraph.Proofs.Files.Steps
import Mathlib.Tactic.SplitIfs

/-!
# Where paths lead

A path leads where it leads because of the directories on its way alone, so a tree that keeps the
directories of another one takes every path to the same parent
(`FileTree.Keeps.locateParent_eq`). Writing a file and moving a file both keep all directories
(`FileAction.write_ok`, `FileAction.moveFile_ok`).
-/

namespace BindingGraph

namespace FileTree

variable {t u : FileTree}

/-! ## The view -/

theorem lookup_filter_ne {entries : List (Location × Entry)} {place other : Location}
    (h : other ≠ place) : (entries.filter (·.1 ≠ place)).lookup other = entries.lookup other := by
  induction entries with
  | nil => rfl
  | cons entry entries ih =>
    obtain ⟨key, value⟩ := entry
    by_cases hkey : key = place
    · have hother : (other == key) = false := beq_eq_false_iff_ne.mpr (hkey ▸ h)
      rw [List.filter_cons_of_neg (by simpa using hkey), ih, List.lookup_cons, hother]
    · rw [List.filter_cons_of_pos (by simpa using hkey), List.lookup_cons, List.lookup_cons, ih]

theorem get?_put_child (parent : Location) (name : String) (entry : Entry) :
    (t.put (parent ++ [name]) entry).get? (parent ++ [name]) = some entry := by
  rw [get?, if_neg (List.append_ne_nil_of_right_ne_nil _ (List.cons_ne_nil _ _)), put,
    List.lookup_cons, beq_self_eq_true]

theorem get?_put_of_ne {place other : Location} (h : other ≠ place) (entry : Entry) :
    (t.put place entry).get? other = t.get? other := by
  unfold get? put
  rw [List.lookup_cons, beq_eq_false_iff_ne.mpr h]
  simp only [lookup_filter_ne h]

theorem get?_erase_of_ne {place other : Location} (h : other ≠ place) :
    (t.erase place).get? other = t.get? other := by
  unfold get? erase
  simp only [lookup_filter_ne h]

/-! ## Where a path starts -/

section Origin

variable {path : FilePath} {start : Location} {parts : List String}

theorem origin_eq_ok_iff :
    t.origin path = .ok (start, parts) ↔
      ¬ path.text.contains '\x00' = true ∧ path.parts ≠ [""] ∧
        ¬ maxPathBytes < path.text.utf8ByteSize ∧
        (if path.isAbsolute then [] else t.current) = start ∧ path.parts = parts := by
  unfold origin
  constructor
  · intro h
    split_ifs at h with hnul hempty hlong habsolute
    · cases h
      exact ⟨hnul, hempty, hlong, if_pos habsolute, rfl⟩
    · cases h
      exact ⟨hnul, hempty, hlong, if_neg habsolute, rfl⟩
  · rintro ⟨hnul, hempty, hlong, rfl, rfl⟩
    rw [if_neg hnul, if_neg hempty, if_neg hlong]

theorem parts_of_origin (h : t.origin path = .ok (start, parts)) : path.parts = parts :=
  (origin_eq_ok_iff.mp h).2.2.2.2

end Origin

/-! ## Following parts -/

theorem follow_append (t : FileTree) (place : Location) (front back : List String) :
    t.follow place (front ++ back) =
      (t.follow place front).bind fun middle => t.follow middle back := by
  induction front generalizing place with
  | nil => rfl
  | cons part front ih =>
    rw [List.cons_append, follow, follow]
    split
    · split_ifs
      · exact ih place
      · exact ih place.dropLast
      · rfl
      · exact ih (place ++ [part])
      · rfl
    · rfl
    · rfl

/-- A step by a name leads there, if there is anything. -/
theorem follow_part {place : Location} {part : String} (hplace : t.get? place = some .directory)
    (htrivial : ¬ FilePath.isTrivial part = true) (hback : part ≠ "..")
    (hshort : ¬ maxNameBytes < part.utf8ByteSize) :
    t.follow place [part] =
      if (t.get? (place ++ [part])).isSome then .ok (place ++ [part]) else .error .notFound := by
  rw [follow, hplace]
  dsimp only
  rw [if_neg htrivial, if_neg hback, if_neg hshort, follow]

/-- A way that ends in a directory starts in one. -/
theorem directory_of_follow {place dest : Location} {parts : List String}
    (h : t.follow place parts = .ok dest) (hdest : t.get? dest = some .directory) :
    t.get? place = some .directory := by
  cases parts with
  | nil => cases h; exact hdest
  | cons part parts =>
    rw [follow] at h
    split at h
    · assumption
    · cases h
    · cases h

/-- The second tree has all directories of the first one. -/
structure Keeps (t u : FileTree) : Prop where
  current : u.current = t.current
  directory : ∀ place, t.get? place = some .directory → u.get? place = some .directory

/-- A way to a directory leads there in every tree that keeps the directories. -/
theorem Keeps.follow_eq (h : Keeps t u) {place dest : Location} {parts : List String}
    (hfollow : t.follow place parts = .ok dest) (hdest : t.get? dest = some .directory) :
    u.follow place parts = .ok dest := by
  induction parts generalizing place with
  | nil => exact hfollow
  | cons part parts ih =>
    have hplace := directory_of_follow hfollow hdest
    rw [follow, hplace] at hfollow
    rw [follow, h.directory place hplace]
    dsimp only at hfollow ⊢
    split_ifs at hfollow with htrivial hback hlong hsome
    · rw [if_pos htrivial]
      exact ih hfollow
    · rw [if_neg htrivial, if_pos hback]
      exact ih hfollow
    · -- The next location is a directory, so it is still there.
      have hnext := h.directory _ (directory_of_follow hfollow hdest)
      rw [if_neg htrivial, if_neg hback, if_neg hlong, hnext, if_pos Option.isSome_some]
      exact ih hfollow

theorem Keeps.origin_eq (h : Keeps t u) (path : FilePath) : u.origin path = t.origin path := by
  rw [origin, origin, h.current]

/-! ## Parents -/

/-- The parts of a path without the slashes at its end, from the last one to the first one. -/
def backward (parts : List String) : List String := parts.reverse.dropWhile (· = "")

/-- What it takes for a path to lead to a name in a directory. -/
theorem locateParent_eq_name_iff {path : FilePath} {parent : Location} {name : String}
    {slash : Bool} :
    t.locateParent path = .ok (parent, .name name slash) ↔
      ∃ start parts front, t.origin path = .ok (start, parts) ∧ backward parts = name :: front ∧
        t.follow start front.reverse = .ok parent ∧ t.get? parent = some .directory ∧
        ¬ (name = "." ∨ name = "..") ∧ (!(parts.reverse.takeWhile (· = "")).isEmpty) = slash := by
  constructor
  · intro h
    obtain ⟨⟨start, parts⟩, horigin, h⟩ := bind_eq_ok_iff.mp h
    dsimp only at h
    split at h
    · cases h
    · rename_i last front hparts
      obtain ⟨middle, hfollow, h⟩ := bind_eq_ok_iff.mp h
      split at h
      · rename_i hdirectory
        split_ifs at h with hdots
        · obtain ⟨_, -, h⟩ := bind_eq_ok_iff.mp h
          cases h
        · cases h
          exact ⟨start, parts, front, horigin, hparts, hfollow, hdirectory, hdots, rfl⟩
      · cases h
      · cases h
  · rintro ⟨start, parts, front, horigin, hparts, hfollow, hdirectory, hdots, rfl⟩
    refine bind_eq_ok_iff.mpr ⟨(start, parts), horigin, ?_⟩
    dsimp only
    rw [show parts.reverse.dropWhile (· = "") = name :: front from hparts]
    refine bind_eq_ok_iff.mpr ⟨parent, hfollow, ?_⟩
    rw [hdirectory]
    exact if_neg hdots

/-- A name in a directory stays where it is in every tree that keeps the directories. -/
theorem Keeps.locateParent_eq (h : Keeps t u) {path : FilePath} {parent : Location} {name : String}
    {slash : Bool} (hpath : t.locateParent path = .ok (parent, .name name slash)) :
    u.locateParent path = .ok (parent, .name name slash) := by
  obtain ⟨start, parts, front, horigin, hparts, hfollow, hdirectory, hdots, hslash⟩ :=
    locateParent_eq_name_iff.mp hpath
  refine locateParent_eq_name_iff.mpr ⟨start, parts, front, ?_, hparts, ?_, ?_, hdots, hslash⟩
  · rw [h.origin_eq]
    exact horigin
  · exact h.follow_eq hfollow hdirectory
  · exact h.directory parent hdirectory

theorem parts_eq_of_backward {parts front : List String} {name : String}
    (hparts : backward parts = name :: front)
    (hslash : (!(parts.reverse.takeWhile (· = "")).isEmpty) = false) :
    parts = front.reverse ++ [name] := by
  have hnone : parts.reverse.takeWhile (· = "") = [] := by simpa using hslash
  have hreverse : parts.reverse = name :: front := by
    rw [← List.takeWhile_append_dropWhile (p := (· = "")) (l := parts.reverse), hnone,
      List.nil_append]
    exact hparts
  rw [← List.reverse_reverse parts, hreverse, List.reverse_cons]

/-- A path to a name in a directory ends in the name. -/
theorem exists_parts_of_locateParent {path : FilePath} {parent : Location} {name : String}
    (h : t.locateParent path = .ok (parent, .name name false)) :
    ∃ front, path.parts = front ++ [name] ∧ ¬ FilePath.isTrivial name = true ∧ name ≠ ".." := by
  obtain ⟨start, parts, front, horigin, hparts, -, -, hdots, hslash⟩ :=
    locateParent_eq_name_iff.mp h
  obtain rfl := parts_of_origin horigin
  have hempty : name ≠ "" := by
    have hfirst := List.head?_dropWhile_not (· = "") path.parts.reverse
    rw [show path.parts.reverse.dropWhile (· = "") = name :: front from hparts] at hfirst
    simpa using hfirst
  refine ⟨front.reverse, parts_eq_of_backward hparts hslash, ?_, fun hback => hdots (.inr hback)⟩
  simp only [FilePath.isTrivial, Bool.or_eq_true, decide_eq_true_eq, not_or]
  exact ⟨hempty, fun hdot => hdots (.inl hdot)⟩

/-- A path to a name in a directory leads to what there is under the name, if there is anything. -/
theorem locate_of_locateParent {path : FilePath} {parent : Location} {name : String}
    (hpath : t.locateParent path = .ok (parent, .name name false))
    (hshort : ¬ maxNameBytes < name.utf8ByteSize) :
    t.locate path =
      if (t.get? (parent ++ [name])).isSome then .ok (parent ++ [name]) else .error .notFound := by
  obtain ⟨start, parts, front, horigin, hparts, hfollow, hdirectory, -, hslash⟩ :=
    locateParent_eq_name_iff.mp hpath
  obtain ⟨-, -, htrivial, hback⟩ := exists_parts_of_locateParent hpath
  rw [locate, horigin]
  show t.follow start parts = _
  rw [parts_eq_of_backward hparts hslash, follow_append, hfollow]
  exact follow_part hdirectory htrivial hback hshort

theorem entryAt_of_locateParent {path : FilePath} {parent : Location} {name : String}
    {entry : Entry} (hpath : t.locateParent path = .ok (parent, .name name false))
    (hshort : ¬ maxNameBytes < name.utf8ByteSize)
    (hentry : t.get? (parent ++ [name]) = some entry) :
    t.entryAt path = .ok entry := by
  have hlocate := locate_of_locateParent hpath hshort
  rw [hentry, if_pos Option.isSome_some] at hlocate
  refine bind_eq_ok_iff.mpr ⟨parent ++ [name], hlocate, ?_⟩
  rw [hentry]

theorem lookUp_eq_ok_iff {parent : Location} {name : String} {found : Option Entry} :
    t.lookUp parent name = .ok found ↔
      ¬ maxNameBytes < name.utf8ByteSize ∧ t.get? (parent ++ [name]) = found := by
  unfold lookUp
  split_ifs with hlong
  · exact ⟨fun h => (by cases h), fun h => absurd hlong h.1⟩
  · rw [Except.ok.injEq]
    exact (and_iff_right hlong).symm

/-! ## Changes that keep directories -/

theorem keeps_put_file {place : Location} (h : t.get? place ≠ some .directory)
    (bytes : List UInt8) :
    Keeps t (t.put place (.file bytes)) := by
  refine ⟨rfl, ?_⟩
  intro other hother
  have hne : other ≠ place := fun heq => h (heq ▸ hother)
  rw [get?_put_of_ne hne]
  exact hother

theorem keeps_move_file {source place : Location} (hsource : t.get? source ≠ some .directory)
    (hplace : t.get? place ≠ some .directory) (bytes : List UInt8) :
    Keeps t ((t.erase source).put place (.file bytes)) := by
  refine ⟨rfl, ?_⟩
  intro other hother
  have hother_place : other ≠ place := fun heq => hplace (heq ▸ hother)
  have hother_source : other ≠ source := fun heq => hsource (heq ▸ hother)
  rw [get?_put_of_ne hother_place, get?_erase_of_ne hother_source]
  exact hother

end FileTree

/-! ## Writing, moving and reading files -/

namespace FileAction

variable {t t' : FileTree}

/-- What a file is written to is a name in a directory. -/
theorem write_ok {path : FilePath} {bytes : List UInt8}
    (h : (write path bytes).run t = (.ok (), t')) :
    ∃ parent name, t.locateParent path = .ok (parent, .name name false) ∧
      ¬ FileTree.maxNameBytes < name.utf8ByteSize ∧
      t.get? (parent ++ [name]) ≠ some .directory ∧
      t' = t.put (parent ++ [name]) (.file bytes) := by
  obtain ⟨⟨parent, last⟩, hparent, h⟩ := run_ask_bind_eq_ok_iff.mp h
  cases last with
  | special => exact absurd h run_throw_ne_ok
  | name name slash =>
    cases slash with
    | true => exact absurd h run_throw_ne_ok
    | false =>
      obtain ⟨found, hfound, h⟩ := run_ask_bind_eq_ok_iff.mp h
      obtain ⟨hshort, rfl⟩ := FileTree.lookUp_eq_ok_iff.mp hfound
      split_ifs at h with hdirectory
      · exact absurd h run_throw_ne_ok
      · exact ⟨parent, name, hparent, hshort, hdirectory, run_modify_eq_ok_iff.mp h⟩

/-- What a file is moved from and to are names in directories. -/
theorem moveFile_ok {source target : FilePath} (h : (moveFile source target).run t = (.ok (), t')) :
    ∃ oldParent oldName parent name bytes,
      t.locateParent source = .ok (oldParent, .name oldName false) ∧
      t.locateParent target = .ok (parent, .name name false) ∧
      t.get? (oldParent ++ [oldName]) = some (.file bytes) ∧
      ¬ FileTree.maxNameBytes < name.utf8ByteSize ∧
      t.get? (parent ++ [name]) ≠ some .directory ∧
      t' = (t.erase (oldParent ++ [oldName])).put (parent ++ [name]) (.file bytes) := by
  obtain ⟨⟨oldParent, oldLast⟩, hold, h⟩ := run_ask_bind_eq_ok_iff.mp h
  obtain ⟨⟨parent, last⟩, hnew, h⟩ := run_ask_bind_eq_ok_iff.mp h
  cases oldLast with
  | special => exact absurd h run_throw_ne_ok
  | name oldName oldSlash =>
    cases last with
    | special => exact absurd h run_throw_ne_ok
    | name name slash =>
      obtain ⟨found, hfound, h⟩ := run_ask_bind_eq_ok_iff.mp h
      have hplace := (FileTree.lookUp_eq_ok_iff.mp hfound).2
      cases found with
      | none => exact absurd h run_throw_ne_ok
      | some entry =>
        cases entry with
        | directory => exact absurd h run_throw_ne_ok
        | file bytes =>
          obtain ⟨replaced, hreplaced, h⟩ := run_ask_bind_eq_ok_iff.mp h
          obtain ⟨hshort, rfl⟩ := FileTree.lookUp_eq_ok_iff.mp hreplaced
          split_ifs at h with hslash hdirectory
          · exact absurd h run_throw_ne_ok
          · exact absurd h run_throw_ne_ok
          · have ht' := run_modify_eq_ok_iff.mp h
            rw [Bool.or_eq_true, not_or, Bool.not_eq_true, Bool.not_eq_true] at hslash
            obtain ⟨rfl, rfl⟩ := hslash
            exact ⟨oldParent, oldName, parent, name, bytes, hold, hnew, hplace, hshort, hdirectory,
              ht'⟩

theorem lookUp_of_short {parent : Location} {name : String}
    (hshort : ¬ FileTree.maxNameBytes < name.utf8ByteSize) :
    t.lookUp parent name = .ok (t.get? (parent ++ [name])) :=
  FileTree.lookUp_eq_ok_iff.mpr ⟨hshort, rfl⟩

section Name

variable {path : FilePath} {parent : Location} {name : String} {bytes : List UInt8}
  (hpath : t.locateParent path = .ok (parent, .name name false))
  (hshort : ¬ FileTree.maxNameBytes < name.utf8ByteSize)
include hpath hshort

theorem write_run (bytes : List UInt8) (hnew : t.get? (parent ++ [name]) ≠ some .directory) :
    (write path bytes).run t = (.ok (), t.put (parent ++ [name]) (.file bytes)) := by
  rw [write, run_ask_bind, hpath]
  dsimp only
  rw [run_ask_bind, lookUp_of_short hshort]
  dsimp only
  rw [if_neg hnew]
  rfl

theorem removeFile_run (hfile : t.get? (parent ++ [name]) = some (.file bytes)) :
    (removeFile path).run t = (.ok (), t.erase (parent ++ [name])) := by
  rw [removeFile, run_ask_bind, hpath]
  dsimp only
  rw [run_ask_bind, lookUp_of_short hshort, hfile]
  rfl

theorem moveFile_run {target : FilePath} {newParent : Location} {newName : String}
    (htarget : t.locateParent target = .ok (newParent, .name newName false))
    (hnewShort : ¬ FileTree.maxNameBytes < newName.utf8ByteSize)
    (hfile : t.get? (parent ++ [name]) = some (.file bytes))
    (hnew : t.get? (newParent ++ [newName]) ≠ some .directory) :
    (moveFile path target).run t =
      (.ok (), (t.erase (parent ++ [name])).put (newParent ++ [newName]) (.file bytes)) := by
  rw [moveFile, run_ask_bind, hpath]
  dsimp only
  rw [run_ask_bind, htarget]
  dsimp only
  rw [run_ask_bind, lookUp_of_short hshort, hfile]
  dsimp only
  rw [run_ask_bind, lookUp_of_short hnewShort]
  dsimp only
  rw [Bool.or_self, if_neg Bool.false_ne_true, if_neg hnew]
  rfl

end Name

/-- What has been written by way of another path is what the path leads to. -/
theorem entryAt_of_write_moveFile {temporary path : FilePath} {bytes : List UInt8} {u : FileTree}
    (hwrite : (write temporary bytes).run t = (.ok (), u))
    (hmove : (moveFile temporary path).run u = (.ok (), t')) :
    t'.entryAt path = .ok (.file bytes) := by
  obtain ⟨place, other, htemporary, -, hfile, rfl⟩ := write_ok hwrite
  obtain ⟨oldParent, oldName, parent, name, moved, hold, hnew, hmoved, hshort, hdirectory, rfl⟩ :=
    moveFile_ok hmove
  -- The file that is moved is the one that has been written.
  have hkept := (FileTree.keeps_put_file hfile bytes).locateParent_eq htemporary
  rw [hold] at hkept
  cases hkept
  rw [FileTree.get?_put_child] at hmoved
  cases hmoved
  have hmoved : (t.put (place ++ [other]) (.file bytes)).get? (place ++ [other]) ≠
      some .directory := by
    rw [FileTree.get?_put_child]
    simp
  have hkeeps := FileTree.keeps_move_file hmoved hdirectory bytes
  exact FileTree.entryAt_of_locateParent (hkeeps.locateParent_eq hnew) hshort
    (FileTree.get?_put_child _ _ _)

theorem read_run {path : FilePath} {bytes : List UInt8}
    (hentry : t.entryAt path = .ok (.file bytes)) : (read path).run t = (.ok bytes, t) :=
  run_ask_bind_eq_ok_iff.mpr ⟨.file bytes, hentry, rfl⟩

theorem readLines_run {path : FilePath} {bytes : List UInt8} {lines : List String}
    (hentry : t.entryAt path = .ok (.file bytes)) (hlines : Text.linesOfBytes bytes = .ok lines) :
    (readLines path).run t = (.ok lines, t) := by
  rw [readLines, run_bind_of_ok (read_run hentry), hlines]
  rfl

theorem readLines_run_of_fault {path : FilePath} {bytes : List UInt8} {fault : Text.Utf8Fault}
    (hentry : t.entryAt path = .ok (.file bytes))
    (hlines : Text.linesOfBytes bytes = .error fault) :
    (readLines path).run t = (.error (.badLine fault), t) := by
  rw [readLines, run_bind_of_ok (read_run hentry), hlines]
  rfl

end FileAction

end BindingGraph
