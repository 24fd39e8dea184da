import BindingGraph.Files.FilePath
import Mathlib.Data.List.TakeWhile
import Mathlib.Tactic.SplitIfs

/-!
# Parents of paths

The parent of a path is told by the parts that count: it has all of them but the last
(`FilePath.components_of_parent?`). Only the root and paths of which no part counts have no parent
(`FilePath.parent?_eq_none_iff`).
-/

namespace BindingGraph.FilePath

variable {path parent : FilePath} {parts names : List String}

/-- The parts that count: the empty one in front of an absolute path or a dot at the very start, and
all parts that name something, among them `..`. -/
def components (path : FilePath) : List String :=
  path.start ++ (path.parts.drop path.start.length).filter (!isTrivial ·)

/-! ## Parts at the end -/

theorem trimEnd_append_trivial (parts : List String) :
    ∃ trivial :
      List String, parts = trimEnd parts ++ trivial ∧ ∀ part ∈ trivial, isTrivial part = true := by
  refine ⟨(parts.reverse.takeWhile isTrivial).reverse, ?_, ?_⟩
  · rw [trimEnd, ← List.reverse_append, List.takeWhile_append_dropWhile, List.reverse_reverse]
  · exact fun part hpart => List.mem_takeWhile_imp (List.mem_reverse.mp hpart)

theorem filter_trimEnd (parts : List String) :
    (trimEnd parts).filter (!isTrivial ·) = parts.filter (!isTrivial ·) := by
  obtain ⟨trivial, hparts, htrivial⟩ := trimEnd_append_trivial parts
  have hnone : trivial.filter (!isTrivial ·) = [] :=
    List.filter_eq_nil_iff.mpr fun part hpart => by simp [htrivial part hpart]
  calc (trimEnd parts).filter (!isTrivial ·)
    _ = (trimEnd parts ++ trivial).filter (!isTrivial ·) := by
      rw [List.filter_append, hnone, List.append_nil]
    _ = parts.filter (!isTrivial ·) := by rw [← hparts]

theorem not_isTrivial_of_getLast?_trimEnd :
    ∀ part ∈ (trimEnd parts).getLast?, ¬ isTrivial part = true := by
  intro part hpart
  have hfirst := List.head?_dropWhile_not isTrivial parts.reverse
  rw [trimEnd, List.getLast?_reverse] at hpart
  rw [Option.mem_def.mp hpart] at hfirst
  simpa using hfirst

theorem components_eq (path : FilePath) :
    path.components = path.start ++ path.body.filter (!isTrivial ·) := by
  rw [components, body, filter_trimEnd]

/-- Some part of a trimmed list counts, unless the list is empty. -/
theorem filter_body_eq_nil_iff : path.body.filter (!isTrivial ·) = [] ↔ path.body = [] := by
  refine ⟨fun hnone => ?_, fun hnil => by rw [hnil, List.filter_nil]⟩
  rcases List.eq_nil_or_concat path.body with hnil | ⟨front, last, hbody⟩
  · exact hnil
  · have hlast : ¬ isTrivial last = true := by
      apply not_isTrivial_of_getLast?_trimEnd
      show last ∈ path.body.getLast?
      rw [hbody, List.concat_eq_append, List.getLast?_concat]
      rfl
    rw [hbody, List.concat_eq_append] at hnone
    simp [hlast] at hnone

theorem start_cases (path : FilePath) :
    (path.start = [""] ∧ ∃ next rest, path.parts = "" :: next :: rest) ∨
      (path.start = ["."] ∧ ∃ rest, path.parts = "." :: rest) ∨
      (path.start = [] ∧ (∀ next rest, path.parts ≠ "" :: next :: rest) ∧
        ∀ rest, path.parts ≠ "." :: rest) := by
  unfold start
  split
  · rename_i next rest hparts
    exact .inl ⟨rfl, next, rest, hparts⟩
  · rename_i rest hparts
    exact .inr (.inl ⟨rfl, rest, hparts⟩)
  · rename_i hroot hdot
    exact .inr (.inr ⟨rfl, hroot, hdot⟩)

/-! ## The parent -/

/-- A path made of the start of another one and parts that it goes on with. -/
theorem components_ofBody (hnames : names <+: path.body)
    (hlast : ∀ part ∈ names.getLast?, ¬ isTrivial part = true) :
    (ofBody path.start names).components = path.start ++ names.filter (!isTrivial ·) := by
  rcases path.start_cases with ⟨hstart, -⟩ | ⟨hstart, -⟩ | ⟨hstart, hroot, hdot⟩
  · rw [hstart]
    cases names with
    | nil => rfl
    | cons first rest => rfl
  · rw [hstart]
    cases names with
    | nil => rfl
    | cons first rest => rfl
  · rw [hstart, List.nil_append]
    cases names with
    | nil => rfl
    | cons first rest =>
      have hparts : first :: rest <+: path.parts := by
        obtain ⟨trivial, hall, -⟩ := trimEnd_append_trivial (path.parts.drop path.start.length)
        have hbody : path.body <+: path.parts.drop path.start.length := ⟨trivial, hall.symm⟩
        rw [hstart] at hbody
        exact hnames.trans hbody
      obtain ⟨others, hothers⟩ := hparts
      have hsame : ofBody [] (first :: rest) = ⟨first :: rest⟩ := by
        unfold ofBody
        split
        · rename_i hnil
          cases hnil
        · rename_i hempty
          obtain ⟨rfl, rfl⟩ := List.cons.inj hempty
          exact absurd rfl (hlast "" rfl)
        · rfl
      -- The parts go on as those of the path do, so they have no start of their own either.
      have hnone : start ⟨first :: rest⟩ = [] := by
        rcases start_cases ⟨first :: rest⟩ with ⟨-, next, more, hmore⟩ | ⟨-, more, hmore⟩ |
          ⟨hnil, -⟩
        · rw [show first :: rest = "" :: next :: more from hmore] at hothers
          exact absurd hothers.symm (hroot _ _)
        · rw [show first :: rest = "." :: more from hmore] at hothers
          exact absurd hothers.symm (hdot _)
        · exact hnil
      rw [hsame, components, hnone]
      rfl

theorem components_of_parent? (h : path.parent? = some parent) :
    parent.components = path.components.dropLast := by
  rw [path.components_eq]
  rcases List.eq_nil_or_concat path.body with hnil | ⟨front, last, hbody⟩
  · rw [parent?, hnil] at h
    dsimp only at h
    split_ifs at h with hdot
    cases h
    rw [hnil, hdot]
    rfl
  · rw [List.concat_eq_append] at hbody
    have hlast : ¬ isTrivial last = true := by
      apply not_isTrivial_of_getLast?_trimEnd
      show last ∈ path.body.getLast?
      rw [hbody, List.getLast?_concat]
      rfl
    have hparent : ofBody path.start (trimEnd front) = parent := by
      have hsome : path.parent? =
          some (ofBody path.start (trimEnd (front ++ [last]).dropLast)) := by
        rw [parent?, hbody]
        cases front <;> rfl
      rw [hsome, List.dropLast_concat] at h
      exact Option.some_inj.mp h
    have hfront : trimEnd front <+: path.body := by
      obtain ⟨trivial, hall, -⟩ := trimEnd_append_trivial front
      exact ⟨trivial ++ [last], by rw [← List.append_assoc, ← hall, hbody]⟩
    rw [← hparent, components_ofBody hfront not_isTrivial_of_getLast?_trimEnd, filter_trimEnd,
      hbody, List.filter_append, List.filter_cons_of_pos (by simpa using hlast), List.filter_nil,
      ← List.append_assoc, List.dropLast_concat]

/-- The root and a path without parts that count have no parent. -/
theorem parent?_eq_none_iff :
    path.parent? = none ↔ path.components = [] ∨ path.components = [""] := by
  have hnone : path.parent? = none ↔ path.body = [] ∧ path.start ≠ ["."] := by
    unfold parent?
    split
    · rename_i hnil
      split_ifs with hdot
      · simp [hdot]
      · simp [hnil, hdot]
    · rename_i part rest hbody
      simp [hbody]
  have hcounts : "" ∉ path.body.filter (!isTrivial ·) := by simp [isTrivial]
  rw [hnone, components_eq, ← filter_body_eq_nil_iff]
  generalize path.body.filter (!isTrivial ·) = counting at hcounts ⊢
  rcases path.start_cases with ⟨hstart, -⟩ | ⟨hstart, -⟩ | ⟨hstart, -⟩
  · simp [hstart]
  · simp [hstart]
  · rw [hstart, List.nil_append]
    refine ⟨fun h => .inl h.1, ?_⟩
    rintro (hnil | hempty)
    · exact ⟨hnil, by simp⟩
    · exact absurd (hempty ▸ List.mem_singleton_self "") hcounts

end BindingGraph.FilePath
