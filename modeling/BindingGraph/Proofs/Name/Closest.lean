import BindingGraph.Name.Closest

/-!
# Which names are offered

The pass over the candidates knows at each point the least of the limit and of the distances so
far, and it keeps the candidates at that distance (`Nearest.Keeps`, one candidate at a time by
`Nearest.Keeps.consider`). At its end the names that are offered have been chosen by a distance
that does not depend on the order of the candidates (`closest_eq`), so in another order the
same names are offered in another order (`perm_closest`). This distance is the one that a first
pass finds as the least within the limit, and the names are those that a second pass finds at
it (`closest_in_two_passes`).
-/

namespace BindingGraph.Name

variable {target : String} {maxDistance : Nat} {candidates others : List String}
  {near other : Nearest}

namespace Nearest

/-- What the pass has kept of the candidates so far. -/
structure Keeps (target : String) (maxDistance : Nat) (candidates : List String) (near : Nearest) :
    Prop where
  best_le : near.best ≤ maxDistance
  best_le_distance : ∀ candidate ∈ candidates, near.best ≤ distance target candidate
  attained : near.best = maxDistance ∨
    ∃ candidate ∈ candidates, distance target candidate = near.best
  names_eq : near.names = (candidates.filter (distance target · = near.best)).reverse

theorem Keeps.start (target : String) (maxDistance : Nat) :
    Keeps target maxDistance [] ⟨maxDistance, []⟩ where
  best_le := Nat.le_refl _
  best_le_distance := by
    intro candidate h
    cases h
  attained := .inl rfl
  names_eq := rfl

/-- With one candidate more the best distance is the lesser of the old one and that of
the candidate. -/
theorem Keeps.concat (h : Keeps target maxDistance candidates near) {candidate : String}
    {best : Nat} {names : List String} (hbest : best = min near.best (distance target candidate))
    (hnames : names = ((candidates ++ [candidate]).filter (distance target · = best)).reverse) :
    Keeps target maxDistance (candidates ++ [candidate]) ⟨best, names⟩ where
  best_le := by
    have hle := h.best_le
    show best ≤ maxDistance
    omega
  best_le_distance := by
    intro name hname
    show best ≤ distance target name
    rcases List.mem_append.mp hname with hname | hname
    · have hle := h.best_le_distance name hname
      omega
    · rw [List.mem_singleton.mp hname]
      omega
  attained := by
    rcases Nat.le_total near.best (distance target candidate) with hle | hle
    · rw [Nat.min_eq_left hle] at hbest
      rw [hbest]
      rcases h.attained with hmax | ⟨name, hname, hdistance⟩
      · exact .inl hmax
      · exact .inr ⟨name, List.mem_append_left _ hname, hdistance⟩
    · rw [Nat.min_eq_right hle] at hbest
      exact .inr ⟨candidate, List.mem_append_right _ List.mem_cons_self, hbest.symm⟩
  names_eq := hnames

theorem Keeps.consider (h : Keeps target maxDistance candidates near) (candidate : String) :
    Keeps target maxDistance (candidates ++ [candidate])
      (Nearest.consider target near candidate) := by
  unfold Nearest.consider
  rcases Nat.lt_trichotomy near.best (distance target candidate) with hfar | hsame | hnear
  · rw [if_pos hfar]
    refine h.concat (by omega) ?_
    rw [List.filter_append, List.filter_cons_of_neg (by simpa using Nat.ne_of_gt hfar),
      List.filter_nil, List.append_nil]
    exact h.names_eq
  · rw [if_neg (by omega), if_neg (by omega)]
    refine h.concat (by omega) ?_
    rw [List.filter_append, List.filter_cons_of_pos (by simpa using hsame.symm), List.filter_nil,
      List.reverse_append, h.names_eq]
    rfl
  · rw [if_neg (by omega), if_pos hnear]
    -- every earlier candidate is farther than this one
    have hnone : candidates.filter (distance target · = distance target candidate) = [] := by
      rw [List.filter_eq_nil_iff]
      intro name hname heq
      have hle := h.best_le_distance name hname
      have heq : distance target name = distance target candidate := by simpa using heq
      omega
    refine h.concat (by omega) ?_
    rw [List.filter_append, hnone, List.filter_cons_of_pos (by simp)]
    rfl

theorem Keeps.foldl (h : Keeps target maxDistance candidates near) (others : List String) :
    Keeps target maxDistance (candidates ++ others)
      (others.foldl (Nearest.consider target) near) := by
  induction others generalizing candidates near with
  | nil => rwa [List.append_nil]
  | cons candidate others ih =>
    rw [List.append_cons]
    exact ih (h.consider candidate)

/-- With more candidates the best distance is no larger. -/
theorem Keeps.best_le_best (h : Keeps target maxDistance candidates near)
    (h' : Keeps target maxDistance others other) (hsub : ∀ name ∈ others, name ∈ candidates) :
    near.best ≤ other.best := by
  rcases h'.attained with hmax | ⟨name, hname, hdistance⟩
  · rw [hmax]
    exact h.best_le
  · rw [← hdistance]
    exact h.best_le_distance name (hsub name hname)

end Nearest

/-- The names that are offered are the candidates at the best distance, in their order. -/
theorem closest_eq (target : String) (candidates : List String) (maxDistance : Nat) :
    ∃ near, Nearest.Keeps target maxDistance candidates near ∧
      closest target candidates maxDistance none =
        candidates.filter (distance target · = near.best) := by
  have hkeeps := (Nearest.Keeps.start target maxDistance).foldl candidates
  rw [List.nil_append] at hkeeps
  refine ⟨_, hkeeps, ?_⟩
  show List.reverse _ = _
  rw [hkeeps.names_eq, List.reverse_reverse]

/-- Only candidates are offered, whatever the limit. -/
theorem mem_of_mem_closest {name : String} {limit : Option Nat}
    (h : name ∈ closest target candidates maxDistance limit) : name ∈ candidates := by
  obtain ⟨near, -, hclosest⟩ := closest_eq target candidates maxDistance
  have hall : name ∈ closest target candidates maxDistance none := by
    cases limit with
    | none => exact h
    | some count => exact List.mem_of_mem_take h
  rw [hclosest] at hall
  exact (List.mem_filter.mp hall).1

theorem perm_closest (h : candidates.Perm others) (target : String) (maxDistance : Nat) :
    (closest target candidates maxDistance none).Perm (closest target others maxDistance none) := by
  obtain ⟨near, hnear, hclosest⟩ := closest_eq target candidates maxDistance
  obtain ⟨other, hother, hclosest'⟩ := closest_eq target others maxDistance
  have hbest : near.best = other.best := by
    apply Nat.le_antisymm
    · exact hnear.best_le_best hother fun _ hname => h.mem_iff.mpr hname
    · exact hother.best_le_best hnear fun _ hname => h.mem_iff.mp hname
  rw [hclosest, hclosest', hbest]
  exact h.filter _

/-! ## Two passes -/

/-- The first pass: the least distance of a candidate, if there is one within the limit. -/
def leastDistance? (target : String) (candidates : List String) (maxDistance : Nat) : Option Nat :=
  ((candidates.map (distance target)).filter (· ≤ maxDistance)).min?

/-- The second pass: the candidates at that distance, in their order. -/
def atLeastDistance (target : String) (candidates : List String) (maxDistance : Nat) :
    List String :=
  match leastDistance? target candidates maxDistance with
  | none => []
  | some least => candidates.filter (distance target · = least)

theorem leastDistance?_eq_none_iff :
    leastDistance? target candidates maxDistance = none ↔
      ∀ candidate ∈ candidates, maxDistance < distance target candidate := by
  simp [leastDistance?, List.min?_eq_none_iff]

theorem leastDistance?_eq_some_iff {least : Nat} :
    leastDistance? target candidates maxDistance = some least ↔
      (∃ candidate ∈ candidates, distance target candidate = least) ∧ least ≤ maxDistance ∧
        ∀ candidate ∈ candidates, distance target candidate ≤ maxDistance →
          least ≤ distance target candidate := by
  simp [leastDistance?, List.min?_eq_some_iff, and_assoc]

/-- The best distance is the least one, and no candidate is at it if all are too far. -/
theorem Nearest.Keeps.filter_eq (h : Keeps target maxDistance candidates near) :
    candidates.filter (distance target · = near.best) =
      atLeastDistance target candidates maxDistance := by
  rw [atLeastDistance]
  cases hleast : leastDistance? target candidates maxDistance with
  | none =>
    rw [leastDistance?_eq_none_iff] at hleast
    rw [List.filter_eq_nil_iff]
    intro candidate hcandidate
    have hfar := hleast candidate hcandidate
    have hbest := h.best_le
    simp
    omega
  | some least =>
    obtain ⟨⟨candidate, hcandidate, hdistance⟩, hmax, hle⟩ := leastDistance?_eq_some_iff.mp hleast
    have hbest : near.best = least := by
      apply Nat.le_antisymm
      · rw [← hdistance]
        exact h.best_le_distance candidate hcandidate
      · rcases h.attained with hattained | ⟨other, hother, hattained⟩
        · omega
        · rw [← hattained]
          exact hle other hother (hattained ▸ h.best_le)
    rw [hbest]

/-- **Two passes.** One pass over the candidates offers what two would: the first finds the least
distance within the limit, the second takes the candidates at exactly this distance, in their order
and as often as they occur, and the limit on their number cuts off the rest. -/
theorem closest_in_two_passes (target : String) (candidates : List String) (maxDistance : Nat)
    (limit : Option Nat) :
    closest target candidates maxDistance limit =
      match limit with
      | none => atLeastDistance target candidates maxDistance
      | some count => (atLeastDistance target candidates maxDistance).take count := by
  obtain ⟨near, hkeeps, hclosest⟩ := closest_eq target candidates maxDistance
  rw [hkeeps.filter_eq] at hclosest
  cases limit with
  | none => exact hclosest
  | some count => exact congrArg (List.take count) hclosest

example : closest "aa" ["ab", "cc", "aa", "ac", "aa"] 3 none = ["aa", "aa"] := by decide

end BindingGraph.Name
