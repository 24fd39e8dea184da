import BindingGraph.Proofs.Files.Attempts
import BindingGraph.Proofs.Files.Parents
import BindingGraph.Workspace.Root

/-!
# The nearest workspace

The search looks at a path and then goes on from its parent, as long as there is one and a
parent may still be looked at (`find?_ancestors_succ`). So it gives the first workspace on the
way up (`findRoot?_nearest`), whatever files there are beside the directories: none of them ends
the search.
-/

namespace BindingGraph

variable {files other : FileTree} {path root : FilePath}

/-! ## Directories -/

/-- A path leads to a directory in every tree that keeps the directories. -/
theorem FileTree.Keeps.isDirectory (h : files.Keeps other) (hpath : files.isDirectory path = true) :
    other.isDirectory path = true := by
  have hentry : files.entryAt path = .ok .directory := by
    unfold FileTree.isDirectory at hpath
    split at hpath
    · assumption
    · cases hpath
  obtain ⟨dest, hlocate, hdest⟩ := entryAt_eq_ok_iff.mp hentry
  obtain ⟨⟨start, parts⟩, horigin, hfollow⟩ := bind_eq_ok_iff.mp hlocate
  have hother : other.locate path = .ok dest := by
    rw [locate, h.origin_eq, horigin]
    exact h.follow_eq hfollow hdest
  rw [FileTree.isDirectory, entryAt_eq_ok_iff.mpr ⟨dest, hother, h.directory dest hdest⟩]

/-- Without a file the same paths lead to directories. -/
theorem FileTree.isDirectory_erase {place : Location} {bytes : List UInt8}
    (h : files.get? place = some (.file bytes)) (path : FilePath) :
    (files.erase place).isDirectory path = files.isDirectory path := by
  have hfile : files.get? place ≠ some .directory := by simp [h]
  have hback : (files.erase place).Keeps files := by
    refine ⟨rfl, ?_⟩
    intro dest hdest
    by_cases heq : dest = place
    · subst heq
      exact absurd hdest (get?_erase_ne_directory hfile)
    · rwa [get?_erase_of_ne heq] at hdest
  exact Bool.eq_iff_iff.mpr ⟨hback.isDirectory, (keeps_erase hfile).isDirectory⟩

namespace Workspace

/-! ## The way up -/

/-- The path so many levels above a path, if it has so many parents. -/
def above? (path : FilePath) : (levels : Nat) → Option FilePath
  | 0 => some path
  | levels + 1 => (above? path levels).bind FilePath.parent?

/-- The first level of the way up is the parent. -/
theorem above?_succ (path : FilePath) (levels : Nat) :
    above? path (levels + 1) = path.parent?.bind fun parent => above? parent levels := by
  induction levels with
  | zero =>
    rw [above?, above?, Option.bind_some]
    cases path.parent? <;> rfl
  | succ levels ih =>
    rw [above?, ih]
    cases path.parent? with
    | none => rfl
    | some parent => rfl

/-- A level less to go, behind the path itself. -/
theorem find?_ancestors_succ (p : FilePath → Bool) (path : FilePath) (count : Nat) :
    (ancestors path (count + 1)).find? p =
      if p path then some path
      else path.parent?.bind fun parent => (ancestors parent count).find? p := by
  rw [ancestors]
  cases path.parent? with
  | none => cases hpath : p path <;> simp [hpath]
  | some parent => cases hpath : p path <;> simp [hpath]

/-- The first path on the way up with a property. -/
def IsFirstAbove (p : FilePath → Bool) (path : FilePath) (count : Nat) (found : FilePath) : Prop :=
  ∃ levels ≤ count, above? path levels = some found ∧ p found = true ∧
    ∀ fewer < levels, ∀ nearer, above? path fewer = some nearer → p nearer = false

theorem isFirstAbove_of_self {p : FilePath → Bool} (h : p path = true) (count : Nat) :
    IsFirstAbove p path count root ↔ root = path := by
  constructor
  · rintro ⟨levels, -, habove, -, hnearer⟩
    cases levels with
    | zero => exact (Option.some_inj.mp habove).symm
    | succ levels => simp [hnearer 0 (Nat.succ_pos _) path rfl] at h
  · rintro rfl
    exact ⟨0, Nat.zero_le _, rfl, h, fun _ hfewer => absurd hfewer (Nat.not_lt_zero _)⟩

theorem isFirstAbove_succ_iff {p : FilePath → Bool} (h : p path = false) (count : Nat) :
    IsFirstAbove p path (count + 1) root ↔
      ∃ parent, path.parent? = some parent ∧ IsFirstAbove p parent count root := by
  constructor
  · rintro ⟨levels, hlevels, habove, hroot, hnearer⟩
    cases levels with
    | zero =>
      obtain rfl := Option.some_inj.mp habove
      rw [hroot] at h
      cases h
    | succ levels =>
      rw [above?_succ, Option.bind_eq_some_iff] at habove
      obtain ⟨parent, hparent, habove⟩ := habove
      refine ⟨parent, hparent, levels, Nat.le_of_succ_le_succ hlevels, habove, hroot, ?_⟩
      intro fewer hfewer nearer hnext
      apply hnearer (fewer + 1) (Nat.succ_lt_succ hfewer)
      rw [above?_succ, hparent]
      exact hnext
  · rintro ⟨parent, hparent, levels, hlevels, habove, hroot, hnearer⟩
    refine ⟨levels + 1, Nat.succ_le_succ hlevels, ?_, hroot, ?_⟩
    · rw [above?_succ, hparent]
      exact habove
    · intro fewer hfewer nearer hnext
      cases fewer with
      | zero =>
        obtain rfl := Option.some_inj.mp hnext
        exact h
      | succ fewer =>
        rw [above?_succ, hparent] at hnext
        exact hnearer fewer (Nat.lt_of_succ_lt_succ hfewer) nearer hnext

theorem find?_ancestors_eq_some_iff {p : FilePath → Bool} {count : Nat} :
    (ancestors path count).find? p = some root ↔ IsFirstAbove p path count root := by
  induction count generalizing path with
  | zero =>
    rw [ancestors]
    cases hpath : p path with
    | true => simp [hpath, isFirstAbove_of_self hpath, eq_comm]
    | false =>
      refine iff_of_false (by simp [hpath]) ?_
      rintro ⟨levels, hlevels, habove, hroot, -⟩
      obtain rfl := Nat.le_zero.mp hlevels
      obtain rfl := Option.some_inj.mp habove
      rw [hroot] at hpath
      cases hpath
  | succ count ih =>
    rw [find?_ancestors_succ]
    cases hpath : p path with
    | true => simp [isFirstAbove_of_self hpath, eq_comm]
    | false =>
      rw [isFirstAbove_succ_iff hpath, if_neg Bool.false_ne_true, Option.bind_eq_some_iff]
      simp only [ih]

/-- Where there is a path with a property on the way up, there is a first one. -/
theorem exists_isFirstAbove {p : FilePath → Bool} {count levels : Nat} (hlevels : levels ≤ count)
    (habove : above? path levels = some root) (hroot : p root = true) :
    ∃ found, IsFirstAbove p path count found := by
  induction levels using Nat.strongRecOn generalizing root with
  | ind levels ih =>
    by_cases hnearer : ∀ fewer < levels, ∀ nearer, above? path fewer = some nearer →
      p nearer = false
    · exact ⟨root, levels, hlevels, habove, hroot, hnearer⟩
    · simp only [not_forall, Bool.not_eq_false] at hnearer
      obtain ⟨fewer, hfewer, nearer, hnext, hp⟩ := hnearer
      exact ih fewer hfewer (Nat.le_trans (Nat.le_of_lt hfewer) hlevels) hnext hp

theorem find?_ancestors_eq_none_iff {p : FilePath → Bool} {count : Nat} :
    (ancestors path count).find? p = none ↔
      ∀ levels ≤ count, ∀ higher, above? path levels = some higher → p higher = false := by
  constructor
  · intro hnone levels hlevels higher habove
    rw [Bool.eq_false_iff]
    intro hhigher
    obtain ⟨found, hfound⟩ := exists_isFirstAbove hlevels habove hhigher
    rw [find?_ancestors_eq_some_iff.mpr hfound] at hnone
    cases hnone
  · intro hall
    rw [Option.eq_none_iff_forall_ne_some]
    intro found hfound
    obtain ⟨levels, hlevels, habove, hp, -⟩ := find?_ancestors_eq_some_iff.mp hfound
    rw [hall levels hlevels found habove] at hp
    cases hp

/-! ## The search -/

/-- **The nearest workspace.** Of a path, its parent, the parent of that and so on, up to 256 of
them, the search gives the first with a directory of the marking name, and nothing if none has one.
A parent has all parts of a path that count but the last; the root and a path without such parts
have none. Files do not matter, whatever their names are. -/
theorem findRoot?_nearest (files : FileTree) (start : FilePath) :
    (∀ root, findRoot? files start = some root ↔
      ∃ levels ≤ 256, above? start levels = some root ∧
        files.isDirectory (root.child ".tangle") = true ∧
        ∀ fewer < levels, ∀ nearer, above? start fewer = some nearer →
          files.isDirectory (nearer.child ".tangle") = false) ∧
    (findRoot? files start = none ↔
      ∀ levels ≤ 256, ∀ higher, above? start levels = some higher →
        files.isDirectory (higher.child ".tangle") = false) ∧
    (∀ path : FilePath, (path.parent? = none ↔ path.components = [] ∨ path.components = [""]) ∧
      ∀ parent, path.parent? = some parent → parent.components = path.components.dropLast) ∧
    ∀ place bytes, files.get? place = some (.file bytes) →
      findRoot? (files.erase place) start = findRoot? files start := by
  refine ⟨fun root => find?_ancestors_eq_some_iff, find?_ancestors_eq_none_iff, ?_, ?_⟩
  · exact fun path => ⟨FilePath.parent?_eq_none_iff, fun parent => FilePath.components_of_parent?⟩
  · intro place bytes hfile
    have hsame : isRoot (files.erase place) = isRoot files := by
      funext path
      exact FileTree.isDirectory_erase hfile _
    rw [findRoot?, findRoot?, hsame]

example : ancestors (.ofText "./a/..") 256 =
    [.ofText "./a/..", .ofText "./a", .ofText ".", .ofText ""] := by
  decide +kernel

end Workspace

end BindingGraph
