import BindingGraph.Proofs.Search.SimplePaths

/-!
# Repeated dependencies

A dependency that a list repeats makes the enumeration go the same ways again, and no others.
If one graph lists the dependencies of another without their later repeats, its enumeration is
that of the other without the later repeats of a path (`pathsFrom_eraseDups`). Ways through
different dependencies have no path in common, so repeats can be left out of each list on its
own (`eraseDups_flatMap`).
-/

namespace BindingGraph

section EraseDups

variable {α β : Type} [BEq α] [LawfulBEq α] [BEq β] [LawfulBEq β]

variable {f : α → List β}

/-- Without what an element contributes, only that element contributes nothing. -/
theorem removeAll_flatMap (hdisjoint : ∀ a b, a ≠ b → ∀ x ∈ f a, x ∉ f b) (x : α) (xs : List α) :
    (xs.flatMap f).removeAll (f x) = (xs.filter fun y => !y == x).flatMap f := by
  induction xs with
  | nil => rfl
  | cons y ys ih =>
    have hsplit : ((y :: ys).flatMap f).removeAll (f x) =
        (f y).removeAll (f x) ++ (ys.flatMap f).removeAll (f x) := List.filter_append _ _
    rw [hsplit, ih]
    by_cases hy : y = x
    · simp [hy, List.removeAll]
    · have hkeeps : (f y).removeAll (f x) = f y := by
        rw [List.removeAll, List.filter_eq_self]
        intro z hz
        simpa using hdisjoint y x hy z hz
      simp [hy, hkeeps]

/-- Where the lists of different elements have nothing in common, repeats are left out element by
element. -/
theorem eraseDups_flatMap (hdisjoint : ∀ a b, a ≠ b → ∀ x ∈ f a, x ∉ f b) (xs : List α) :
    (xs.flatMap f).eraseDups = xs.eraseDups.flatMap fun x => (f x).eraseDups := by
  induction hlength : xs.length using Nat.strongRecOn generalizing xs with
  | ind n ih =>
    cases xs with
    | nil => rfl
    | cons x xs =>
      have hshorter : (xs.filter fun y => !y == x).length < n := by
        have := List.length_filter_le (fun y => !y == x) xs
        rw [List.length_cons] at hlength
        omega
      rw [List.flatMap_cons, List.eraseDups_append, removeAll_flatMap hdisjoint,
        ih _ hshorter _ rfl, List.eraseDups_cons, List.flatMap_cons]

theorem eraseDups_map {f : α → β} (hf : Function.Injective f) (xs : List α) :
    (xs.map f).eraseDups = xs.eraseDups.map f := by
  rw [List.map_eq_flatMap, List.map_eq_flatMap, eraseDups_flatMap]
  · rfl
  · intro a b hne x hx hx'
    exact hne (hf ((List.mem_singleton.mp hx).symm.trans (List.mem_singleton.mp hx')))

omit [LawfulBEq α] in
theorem head?_eraseDups (xs : List α) : xs.eraseDups.head? = xs.head? := by
  cases xs with
  | nil => rfl
  | cons x xs => rw [List.eraseDups_cons, List.head?_cons, List.head?_cons]

end EraseDups

namespace Graph

/-- Without repeated dependencies the same paths are listed in the same order, each once. -/
theorem pathsFrom_eraseDups {g h : Graph}
    (hdeps : ∀ name, h.dependencies name = (g.dependencies name).eraseDups)
    (target : String) (visited : List String) (name : String) :
    h.pathsFrom target visited name = (g.pathsFrom target visited name).eraseDups := by
  induction visited, name using pathsFrom.induct g target with
  | case1 visited =>
    rw [pathsFrom_target, pathsFrom_target]
    rfl
  | case2 visited name hname ih =>
    rw [pathsFrom_eq, if_neg hname, g.pathsFrom_eq, if_neg hname, hdeps, eraseDups_flatMap]
    · apply List.flatMap_congr
      intro next hnext
      split
      · rfl
      · rename_i hnew
        exact ih next (List.mem_eraseDups.mp hnext) hnew
    · intro a b hne path ha hb
      obtain ⟨rest, rfl⟩ := exists_of_mem_branch ha
      obtain ⟨rest', heq⟩ := exists_of_mem_branch hb
      simp [hne] at heq

end Graph

end BindingGraph
