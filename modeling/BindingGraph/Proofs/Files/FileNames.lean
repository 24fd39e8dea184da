import BindingGraph.Proofs.Files.Places
import Mathlib.Data.List.TakeDrop
import Mathlib.Data.List.TakeWhile

/-!
# The names of files

A path that leads to a file ends in the file's name (`FileTree.IsTree.exists_fileName`): behind it
there is neither a slash nor a dot, since those lead to directories only. The stem of a name is what
stands before its last dot, if that is not at the very front (`FilePath.isStem_splitName`).
-/

namespace BindingGraph

/-! ## Stems -/

namespace FilePath

/-- A stem of a file name: the whole name if it has no dot but one at the front, and else what its
last dot follows. -/
def IsStem (stem name : String) : Prop :=
  (stem = name ∧ '.' ∉ name.toList.tail) ∨
    ∃ extension, '.' ∉ extension.toList ∧ stem ≠ "" ∧ name = stem ++ "." ++ extension

/-- A name is cut at its last dot if something stands before that, and else it is all stem. -/
theorem splitName_cases (name : String) :
    (splitName name = (name, none) ∧ '.' ∉ name.toList.tail) ∨
      ∃ stem extension, splitName name = (stem, some extension) ∧ '.' ∉ extension.toList ∧
        stem ≠ "" ∧
        name = stem ++ "." ++ extension := by
  have hsplit : name.toList = (name.toList.reverse.dropWhile (· != '.')).reverse ++
      (name.toList.reverse.takeWhile (· != '.')).reverse := by
    rw [← List.reverse_append, List.takeWhile_append_dropWhile, List.reverse_reverse]
  have hfront : '.' ∉ (name.toList.reverse.takeWhile (· != '.')).reverse := by
    intro hmem
    have hne := List.mem_takeWhile_imp (List.mem_reverse.mp hmem)
    simp at hne
  have hdot := List.head?_dropWhile_not (· != '.') name.toList.reverse
  rw [splitName, List.span_eq_takeWhile_dropWhile]
  generalize name.toList.reverse.takeWhile (· != '.') = back at hsplit hfront ⊢
  generalize name.toList.reverse.dropWhile (· != '.') = front at hsplit hdot ⊢
  match front, hdot, hsplit with
  | [], _, hsplit =>
    refine .inl ⟨rfl, fun hmem => hfront ?_⟩
    rw [hsplit] at hmem
    exact List.mem_of_mem_tail hmem
  | [dot], _, hsplit =>
    refine .inl ⟨rfl, fun hmem => hfront ?_⟩
    rw [hsplit] at hmem
    exact hmem
  | dot :: ch :: stem, hdot, hsplit =>
    refine .inr ⟨String.ofList (ch :: stem).reverse, String.ofList back.reverse, rfl, ?_, ?_, ?_⟩
    · rwa [String.toList_ofList]
    · simp
    · have hdot : dot = '.' := by simpa using hdot
      rw [← String.toList_inj, hsplit, hdot]
      simp

theorem isStem_splitName (name : String) : IsStem (splitName name).1 name := by
  rcases splitName_cases name with ⟨hsplit, htail⟩ |
    ⟨stem, extension, hsplit, hextension, hstem, hname⟩
  · rw [hsplit]
    exact .inl ⟨rfl, htail⟩
  · rw [hsplit]
    exact .inr ⟨extension, hextension, hstem, hname⟩

/-! ## Paths that end in a name -/

section Last

variable {path : FilePath} {parts : List String} {name : String}

theorem trimEnd_of_getLast? (h : parts.getLast? = some name) (hname : ¬ isTrivial name = true) :
    trimEnd parts = parts := by
  obtain ⟨front, rfl⟩ := List.getLast?_eq_some_iff.mp h
  rw [trimEnd, List.reverse_append, List.reverse_singleton, List.singleton_append,
    List.dropWhile_cons_of_neg hname]
  simp

theorem length_start_lt (h : path.parts.getLast? = some name) (hname : ¬ isTrivial name = true) :
    path.start.length < path.parts.length := by
  unfold start
  split
  · rename_i hparts
    rw [hparts]
    simp
  · rename_i rest hparts
    rw [hparts] at h ⊢
    cases rest with
    | nil =>
      cases h
      exact absurd rfl hname
    | cons next rest => simp
  · exact List.length_pos_iff.mpr fun hnil => by rw [hnil] at h; cases h

theorem body_of_getLast? (h : path.parts.getLast? = some name) (hname : ¬ isTrivial name = true) :
    path.body = path.parts.drop path.start.length ∧ path.body.getLast? = some name := by
  have hlast : (path.parts.drop path.start.length).getLast? = some name := by
    rw [List.getLast?_drop, if_neg (Nat.not_le.mpr (length_start_lt h hname)), h]
  have hbody : path.body = path.parts.drop path.start.length := trimEnd_of_getLast? hlast hname
  exact ⟨hbody, hbody ▸ hlast⟩

theorem fileName?_of_getLast? (h : path.parts.getLast? = some name)
    (hname : ¬ isTrivial name = true) (hback : name ≠ "..") : path.fileName? = some name := by
  rw [fileName?, (body_of_getLast? h hname).2, Option.filter_some]
  exact if_pos (by simpa using hback)

/-- The stem of a path that ends in a name is that of the name. -/
theorem stem?_of_getLast? (h : path.parts.getLast? = some name) (hname : ¬ isTrivial name = true)
    (hback : name ≠ "..") : path.stem? = some (splitName name).1 := by
  rw [stem?, fileName?_of_getLast? h hname hback]
  rfl

end Last

end FilePath

/-! ## Paths that lead to a file -/

namespace FileTree.IsTree

variable {t : FileTree} {path : FilePath} {bytes : List UInt8}
variable (ht : t.IsTree)
include ht

theorem get?_dropLast {place : Location} (h : t.get? place = some .directory) :
    t.get? place.dropLast = some .directory := by
  rcases List.eq_nil_or_concat place with rfl | ⟨front, name, rfl⟩
  · exact h
  · rw [List.concat_eq_append] at h ⊢
    rw [List.dropLast_concat]
    exact ht.get?_parent h

/-- The last step of a way to a file is a name. -/
theorem getLast?_of_follow {place dest : Location} {parts : List String}
    (hfollow : t.follow place parts = .ok dest) (hdest : t.get? dest = some (.file bytes))
    (hne : parts ≠ []) :
    ∃ name, parts.getLast? = some name ∧ ¬ FilePath.isTrivial name = true ∧ name ≠ ".." := by
  induction parts generalizing place with
  | nil => exact absurd rfl hne
  | cons part parts ih =>
    rw [follow] at hfollow
    split at hfollow
    · rename_i hplace
      by_cases hlast : parts = []
      · subst hlast
        split_ifs at hfollow with htrivial hback hlong hsome
        · -- A dot or a slash stays in the directory.
          cases hfollow
          rw [hplace] at hdest
          cases hdest
        · cases hfollow
          rw [ht.get?_dropLast hplace] at hdest
          cases hdest
        · exact ⟨part, rfl, htrivial, hback⟩
      · rw [List.getLast?_cons_of_ne_nil hlast]
        split_ifs at hfollow
        · exact ih hfollow hlast
        · exact ih hfollow hlast
        · exact ih hfollow hlast
    · cases hfollow
    · cases hfollow

/-- A path that leads to a file ends in the name of the file, and its stem is one of this name. -/
theorem exists_fileName (h : t.entryAt path = .ok (.file bytes)) (hparts : path.parts ≠ []) :
    ∃ name, path.parts.getLast? = some name ∧ path.stem? = some (FilePath.splitName name).1 := by
  obtain ⟨dest, hlocate, hentry⟩ := bind_eq_ok_iff.mp h
  obtain ⟨⟨place, parts⟩, horigin, hfollow⟩ := bind_eq_ok_iff.mp hlocate
  have hdest : t.get? dest = some (.file bytes) := by
    cases hget : t.get? dest with
    | none =>
      rw [hget] at hentry
      cases hentry
    | some entry =>
      rw [hget] at hentry
      cases hentry
      rfl
  obtain rfl := parts_of_origin horigin
  obtain ⟨name, hlast, htrivial, hback⟩ := ht.getLast?_of_follow hfollow hdest hparts
  exact ⟨name, hlast, FilePath.stem?_of_getLast? hlast htrivial hback⟩

end FileTree.IsTree

end BindingGraph
