import BindingGraph.Proofs.Files.FileNames

/-!
# Attempts that fail

Writing, moving and removing a file leave the tree as it was when they fail
(`FileAction.careful_write`, `FileAction.careful_moveFile`, `FileAction.careful_removeFile`). A path
to a file ends in the file's name, so each of the three can be done there
(`FileTree.IsTree.exists_locateParent`), and without the file all paths but those that lead to it
find what they did (`FileTree.entryAt_erase`).
-/

namespace BindingGraph

namespace FileTree

variable {t : FileTree} {path : FilePath} {place parent : Location} {name : String}
  {bytes : List UInt8}

/-! ## Without a file -/

theorem get?_erase_self (hplace : place ≠ []) : (t.erase place).get? place = none := by
  rw [get?, if_neg hplace, erase, List.lookup_eq_none_iff]
  intro entry hentry
  have hne : entry.1 ≠ place := by simpa using (List.mem_filter.mp hentry).2
  exact bne_iff_ne.mpr hne.symm

theorem get?_erase_ne_directory {other : Location} (h : t.get? other ≠ some .directory) :
    (t.erase place).get? other ≠ some .directory := by
  by_cases heq : other = place
  · subst heq
    have hne : other ≠ [] := fun hnil => h (by rw [hnil]; rfl)
    rw [get?_erase_self hne]
    simp
  · rwa [get?_erase_of_ne heq]

/-- Nothing lies behind what is not a directory. -/
theorem follow_of_not_directory (h : t.get? place ≠ some .directory) {parts : List String}
    (hparts : parts ≠ []) : (t.follow place parts).toOption = none := by
  cases parts with
  | nil => exact absurd rfl hparts
  | cons part parts =>
    rw [follow]
    split
    · contradiction
    · rfl
    · rfl

/-- A way that does not end at a file goes the same without the file, or is none both times. -/
theorem follow_erase (hplace : t.get? place ≠ some .directory) {start : Location}
    {parts : List String} (hend : t.follow start parts ≠ .ok place) :
    ((t.erase place).follow start parts).toOption = (t.follow start parts).toOption := by
  induction parts generalizing start with
  | nil => rfl
  | cons part parts ih =>
    by_cases hstart : t.get? start = some .directory
    · have hne : start ≠ place := fun heq => hplace (heq ▸ hstart)
      rw [follow, hstart] at hend
      rw [follow, follow, get?_erase_of_ne hne, hstart]
      dsimp only at hend ⊢
      by_cases hnext : start ++ [part] = place
      · subst hnext
        rw [get?_erase_self (List.append_ne_nil_of_right_ne_nil _ (List.cons_ne_nil _ _)),
          Option.isSome_none, if_neg Bool.false_ne_true]
        split_ifs at hend ⊢
        · exact ih hend
        · exact ih hend
        · rfl
        · -- The file is on the way, which goes on behind it.
          have hparts : parts ≠ [] := by
            rintro rfl
            exact hend rfl
          exact (follow_of_not_directory hplace hparts).symm
        · rfl
      · rw [get?_erase_of_ne hnext]
        split_ifs at hend ⊢
        · exact ih hend
        · exact ih hend
        · rfl
        · exact ih hend
        · rfl
    · rw [follow_of_not_directory hstart (List.cons_ne_nil _ _),
        follow_of_not_directory (get?_erase_ne_directory hstart) (List.cons_ne_nil _ _)]

theorem keeps_erase (hplace : t.get? place ≠ some .directory) : Keeps t (t.erase place) := by
  refine ⟨rfl, ?_⟩
  intro other hother
  have hne : other ≠ place := fun heq => hplace (heq ▸ hother)
  rw [get?_erase_of_ne hne]
  exact hother

/-- A file that is put somewhere is no directory. -/
theorem keeps_of_put_file (t : FileTree) (parent : Location) (name : String) (bytes : List UInt8) :
    Keeps (t.put (parent ++ [name]) (.file bytes)) t := by
  refine ⟨rfl, ?_⟩
  intro other hother
  by_cases heq : other = parent ++ [name]
  · rw [heq, get?_put_child] at hother
    cases hother
  · rwa [get?_put_of_ne heq] at hother

theorem locate_erase (hplace : t.get? place ≠ some .directory) (hpath : t.locate path ≠ .ok place) :
    ((t.erase place).locate path).toOption = (t.locate path).toOption := by
  have horigin : (t.erase place).origin path = t.origin path := rfl
  rw [locate] at hpath
  rw [locate, locate, horigin]
  cases hstart : t.origin path with
  | error error => rfl
  | ok start =>
    rw [hstart] at hpath
    exact follow_erase hplace hpath

theorem toOption_entryAt (t : FileTree) (path : FilePath) :
    (t.entryAt path).toOption = (t.locate path).toOption.bind t.get? := by
  rw [entryAt]
  cases t.locate path with
  | error error => rfl
  | ok dest =>
    dsimp only [bind, Except.bind, Except.toOption, Option.bind]
    cases t.get? dest <;> rfl

/-- Without a file, every path that does not lead to it finds what it did. -/
theorem entryAt_erase (hplace : t.get? place ≠ some .directory)
    (hpath : t.locate path ≠ .ok place) :
    ((t.erase place).entryAt path).toOption = (t.entryAt path).toOption := by
  rw [toOption_entryAt, toOption_entryAt, locate_erase hplace hpath]
  cases hdest : t.locate path with
  | error error => rfl
  | ok dest =>
    have hne : dest ≠ place := fun heq => hpath (heq ▸ hdest)
    exact get?_erase_of_ne hne

/-! ## Where a file is -/

theorem entryAt_eq_ok_iff {entry : Entry} :
    t.entryAt path = .ok entry ↔
      ∃ place, t.locate path = .ok place ∧ t.get? place = some entry := by
  rw [entryAt, bind_eq_ok_iff]
  refine exists_congr fun place => and_congr_right fun _ => ?_
  cases t.get? place with
  | none => exact ⟨fun h => (by cases h), fun h => (by cases h)⟩
  | some other => exact ⟨fun h => (by cases h; rfl), fun h => (by cases h; rfl)⟩

theorem locateParent_concat {start : Location} {parts front : List String}
    (horigin : t.origin path = .ok (start, parts)) (hparts : parts = front ++ [name])
    (hfollow : t.follow start front = .ok parent) (hparent : t.get? parent = some .directory)
    (hname : ¬ FilePath.isTrivial name = true) (hback : name ≠ "..") :
    t.locateParent path = .ok (parent, .name name false) := by
  have hempty : ¬ name = "" := fun heq => hname (by rw [heq]; rfl)
  have hdot : name ≠ "." := fun heq => hname (by rw [heq]; rfl)
  have hreverse : parts.reverse = name :: front.reverse := by
    rw [hparts, List.reverse_append, List.reverse_singleton, List.singleton_append]
  refine locateParent_eq_name_iff.mpr
    ⟨start, parts, front.reverse, horigin, ?_, ?_, hparent, ?_, ?_⟩
  · rw [backward, hreverse, List.dropWhile_cons_of_neg (by simpa using hempty)]
  · rwa [List.reverse_reverse]
  · rintro (heq | heq)
    · exact hdot heq
    · exact hback heq
  · rw [hreverse, List.takeWhile_cons_of_neg (by simpa using hempty)]
    rfl

theorem entryAt_of_locateParent_none (h : t.locateParent path = .ok (parent, .name name false))
    (hshort : ¬ maxNameBytes < name.utf8ByteSize) (hnone : t.get? (parent ++ [name]) = none) :
    t.entryAt path = .error .notFound := by
  rw [entryAt, locate_of_locateParent h hshort, hnone]
  rfl

/-- A path that leads to a file ends in its name, which stands in a directory. -/
theorem IsTree.exists_locateParent (ht : t.IsTree) (hparts : path.parts ≠ [])
    (hpath : t.locate path = .ok place) (hfile : t.get? place = some (.file bytes)) :
    ∃ parent name, place = parent ++ [name] ∧ t.locateParent path = .ok (parent, .name name false) ∧
      ¬ maxNameBytes < name.utf8ByteSize := by
  obtain ⟨⟨start, parts⟩, horigin, hfollow⟩ := bind_eq_ok_iff.mp hpath
  dsimp only at hfollow
  obtain rfl := parts_of_origin horigin
  obtain ⟨name, hlast, hname, hback⟩ := ht.getLast?_of_follow hfollow hfile hparts
  obtain ⟨front, hfront⟩ := List.getLast?_eq_some_iff.mp hlast
  rw [hfront, follow_append] at hfollow
  obtain ⟨parent, hparent, hstep⟩ := bind_eq_ok_iff.mp hfollow
  rw [follow] at hstep
  split at hstep
  · rename_i hdirectory
    split_ifs at hstep with hlong hsome
    cases hstep
    exact ⟨parent, name, rfl, locateParent_concat horigin hfront hparent hdirectory hname hback,
      hlong⟩
  · cases hstep
  · cases hstep

end FileTree

/-! ## Steps that fail -/

namespace FileAction

/-- A step that changes nothing when it fails. -/
def Careful {α : Type} (step : FileAction α) : Prop :=
  ∀ t error t', step.run t = (.error error, t') → t' = t

section Careful

variable {α β : Type}

theorem careful_throw (error : FileError) : Careful (throw error : FileAction α) := by
  intro t error t' h
  cases h
  rfl

theorem careful_modify (change : FileTree → FileTree) : Careful (modify change) := by
  intro t error t' h
  cases h

/-- Steps that only ask before they do something careful are careful. -/
theorem Careful.ask_bind {question : FileTree → Except FileError α} {f : α → FileAction β}
    (h : ∀ a, Careful (f a)) : Careful (ask question >>= f) := by
  intro t error t' hrun
  rw [run_ask_bind] at hrun
  split at hrun
  · exact h _ t error t' hrun
  · cases hrun
    rfl

theorem careful_ite {c : Prop} [Decidable c] {step other : FileAction α} (hstep : Careful step)
    (hother : Careful other) : Careful (if c then step else other) := by
  split_ifs
  · exact hstep
  · exact hother

theorem careful_write (path : FilePath) (bytes : List UInt8) : Careful (write path bytes) := by
  refine .ask_bind ?_
  rintro ⟨parent, ⟨name, _ | _⟩ | _⟩
  · exact .ask_bind fun found => careful_ite (careful_throw _) (careful_modify _)
  · exact careful_throw _
  · exact careful_throw _

theorem careful_moveFile (source target : FilePath) : Careful (moveFile source target) := by
  refine .ask_bind fun old => .ask_bind fun new => ?_
  rcases old with ⟨oldParent, ⟨oldName, oldSlash⟩ | _⟩
  · rcases new with ⟨newParent, ⟨newName, newSlash⟩ | _⟩
    · refine .ask_bind ?_
      rintro (_ | _ | bytes)
      · exact careful_throw _
      · exact careful_throw _
      · exact .ask_bind fun replaced =>
          careful_ite (careful_throw _) (careful_ite (careful_throw _) (careful_modify _))
    · exact careful_throw _
  · exact careful_throw _

theorem careful_removeFile (path : FilePath) : Careful (removeFile path) := by
  refine .ask_bind ?_
  rintro ⟨parent, ⟨name, slash⟩ | _⟩
  · refine .ask_bind ?_
    rintro (_ | _ | bytes)
    · exact careful_throw _
    · exact careful_throw _
    · exact careful_ite (careful_throw _) (careful_modify _)
  · exact careful_throw _

end Careful

/-! ## Steps on a name in a directory -/

section Name

variable {t t' : FileTree} {path : FilePath} {parent : Location} {name : String}
  {bytes : List UInt8}

theorem removeFile_ok (h : (removeFile path).run t = (.ok (), t')) :
    ∃ parent name bytes, t.locateParent path = .ok (parent, .name name false) ∧
      ¬ FileTree.maxNameBytes < name.utf8ByteSize ∧
      t.get? (parent ++ [name]) = some (.file bytes) ∧ t' = t.erase (parent ++ [name]) := by
  obtain ⟨⟨parent, last⟩, hparent, h⟩ := run_ask_bind_eq_ok_iff.mp h
  cases last with
  | special => exact absurd h run_throw_ne_ok
  | name name slash =>
    obtain ⟨found, hfound, h⟩ := run_ask_bind_eq_ok_iff.mp h
    obtain ⟨hshort, hplace⟩ := FileTree.lookUp_eq_ok_iff.mp hfound
    rcases found with _ | _ | bytes
    · exact absurd h run_throw_ne_ok
    · exact absurd h run_throw_ne_ok
    · cases slash with
      | true => exact absurd h run_throw_ne_ok
      | false => exact ⟨parent, name, bytes, hparent, hshort, hplace, run_modify_eq_ok_iff.mp h⟩

/-- A file can always be moved to where it is. -/
theorem moveFile_self_run (hpath : t.locateParent path = .ok (parent, .name name false))
    (hshort : ¬ FileTree.maxNameBytes < name.utf8ByteSize)
    (hfile : t.get? (parent ++ [name]) = some (.file bytes)) :
    (moveFile path path).run t =
      (.ok (), (t.erase (parent ++ [name])).put (parent ++ [name]) (.file bytes)) := by
  apply moveFile_run hpath hshort hpath hshort hfile
  rw [hfile]
  simp

end Name

end FileAction

end BindingGraph
