import BindingGraph.Proofs.Name.Distance

/-!
# The edit distance is a metric

Edits can be put one behind the other and undone, and a single one changes the length of a text by
one at most. Since the distance is the least number of edits, it is a metric on names, at least the
difference of their lengths, and at most the longer length (`distance_metric`).
-/

namespace BindingGraph.Name

/-! ## Edits and lengths -/

section Edits

variable {a b : List Char} {n : Nat}

theorem edits_zero_iff : Edits 0 a b ↔ a = b := by
  constructor
  · intro h
    cases h
    rfl
  · rintro rfl
    exact .none a

theorem Edit.length_le (h : Edit a b) : a.length ≤ b.length + 1 := by
  cases h with
  | insert front back c =>
    simp only [List.length_append, List.length_cons]
    omega
  | delete front back c =>
    simp only [List.length_append, List.length_cons]
    omega
  | substitute front back c d =>
    simp only [List.length_append, List.length_cons]
    omega

theorem Edits.length_le (h : Edits n a b) : a.length ≤ b.length + n := by
  induction h with
  | none => exact Nat.le_refl _
  | more hedit _ ih =>
    have hfirst := hedit.length_le
    omega

/-- Characters are substituted as long as both texts have any, and the rest is deleted
or inserted. -/
theorem cost_le_max (a b : List Char) : cost a b ≤ max a.length b.length := by
  induction a generalizing b with
  | nil => simp
  | cons c a ih =>
    cases b with
    | nil => simp
    | cons d b =>
      have hrest := ih b
      have hmatch : (if c = d then 0 else 1) ≤ 1 := by split <;> omega
      rw [cost_cons_cons, List.length_cons, List.length_cons]
      omega

end Edits

/-! ## The laws of a metric -/

section Metric

variable (a b c : String)

theorem edits_distance : Edits (distance a b) a.toList b.toList :=
  (charDistance_isLeast a.toList b.toList).1

variable {a b} in
theorem distance_le_of_edits {n : Nat} (h : Edits n a.toList b.toList) : distance a b ≤ n :=
  (charDistance_isLeast a.toList b.toList).2 h

theorem distance_eq_zero_iff : distance a b = 0 ↔ a = b := by
  constructor
  · intro h
    have hedits := edits_distance a b
    rw [h, edits_zero_iff] at hedits
    exact String.toList_inj.mp hedits
  · rintro rfl
    exact Nat.le_zero.mp (distance_le_of_edits (.none _))

theorem distance_comm : distance a b = distance b a :=
  Nat.le_antisymm (distance_le_of_edits (edits_distance b a).symm)
    (distance_le_of_edits (edits_distance a b).symm)

theorem distance_triangle : distance a c ≤ distance a b + distance b c :=
  distance_le_of_edits ((edits_distance a b).trans (edits_distance b c))

theorem length_le_add_distance : a.length ≤ b.length + distance a b := by
  rw [← String.length_toList, ← String.length_toList]
  exact (edits_distance a b).length_le

theorem distance_le_max_length : distance a b ≤ max a.length b.length := by
  rw [← String.length_toList, ← String.length_toList]
  exact (distance_le_of_edits (edits_cost _ _)).trans (cost_le_max _ _)

/-- **The distance as a metric.** It is zero between equal names only, symmetric, and no longer than
a way round; between names of different lengths it is at least the difference, and it is never more
than the longer length. -/
theorem distance_metric (a b c : String) :
    (distance a b = 0 ↔ a = b) ∧ distance a b = distance b a ∧
      distance a c ≤ distance a b + distance b c ∧
      ((a.length : Int) - b.length).natAbs ≤ distance a b ∧
      distance a b ≤ max a.length b.length := by
  refine ⟨distance_eq_zero_iff a b, distance_comm a b, distance_triangle a b c, ?_,
    distance_le_max_length a b⟩
  have hforth := length_le_add_distance a b
  have hback := length_le_add_distance b a
  rw [distance_comm b a] at hback
  omega

end Metric

end BindingGraph.Name
