import BindingGraph.Name.Distance
import Mathlib.Order.Bounds.Basic

/-!
# The edit distance is least

`distance a b` edits turn `a` into `b`, and no fewer do (`distance_isLeast`), whichever of the two
names is the longer one. Between the table and the edits stands `cost`, the recursion on the first
characters of two texts:

* the cost can be spent (`edits_cost`), and since a single edit lowers it by one at most
  (`Edit.cost_le`), no fewer edits are enough (`cost_le_of_edits`);
* a row of the table holds the costs of what has been read of the longer name against each start of
  the shorter one, both read backwards (`lastRow_eq`).
-/

namespace BindingGraph.Name

variable {a b : List Char} {n m : Nat}

/-! ## Edits -/

theorem Edit.symm (h : Edit a b) : Edit b a := by
  cases h with
  | insert front back c => exact .delete front back c
  | delete front back c => exact .insert front back c
  | substitute front back c d => exact .substitute front back d c

theorem Edit.cons (h : Edit a b) (c : Char) : Edit (c :: a) (c :: b) := by
  cases h with
  | insert front back d => exact .insert (c :: front) back d
  | delete front back d => exact .delete (c :: front) back d
  | substitute front back d e => exact .substitute (c :: front) back d e

theorem Edit.reverse (h : Edit a b) : Edit a.reverse b.reverse := by
  cases h with
  | insert front back c => simpa using Edit.insert back.reverse front.reverse c
  | delete front back c => simpa using Edit.delete back.reverse front.reverse c
  | substitute front back c d => simpa using Edit.substitute back.reverse front.reverse c d

theorem Edits.trans {c : List Char} (h : Edits n a b) (h' : Edits m b c) : Edits (n + m) a c := by
  induction h with
  | none => simpa using h'
  | @more n _ _ _ hedit _ ih =>
    rw [Nat.add_right_comm]
    exact .more hedit (ih h')

theorem Edits.symm (h : Edits n a b) : Edits n b a := by
  induction h with
  | none => exact .none _
  | more hedit _ ih => exact ih.trans (.more hedit.symm (.none _))

theorem Edits.cons (h : Edits n a b) (c : Char) : Edits n (c :: a) (c :: b) := by
  induction h with
  | none => exact .none _
  | more hedit _ ih => exact .more (hedit.cons c) ih

theorem Edits.reverse (h : Edits n a b) : Edits n a.reverse b.reverse := by
  induction h with
  | none => exact .none _
  | more hedit _ ih => exact .more hedit.reverse ih

theorem edits_reverse_iff : Edits n a.reverse b.reverse ↔ Edits n a b := by
  constructor
  · intro h
    simpa using h.reverse
  · exact Edits.reverse

theorem edits_comm : Edits n a b ↔ Edits n b a :=
  ⟨Edits.symm, Edits.symm⟩

theorem edits_min (h : Edits n a b) (h' : Edits m a b) : Edits (min n m) a b := by
  rcases Nat.le_total n m with hle | hle
  · rwa [Nat.min_eq_left hle]
  · rwa [Nat.min_eq_right hle]

theorem edits_length_nil (b : List Char) : Edits b.length [] b := by
  induction b with
  | nil => exact .none _
  | cons d b ih => exact .more (.insert [] [] d) (ih.cons d)

/-! ## The cost of two texts -/

/-- The fewest edits, by recursion: the first characters are matched or substituted, the first of
`a` is deleted, or the first of `b` inserted. -/
def cost : List Char → List Char → Nat
  | [], b => b.length
  | _ :: a, [] => a.length + 1
  | c :: a, d :: b =>
    min (min (cost a b + if c = d then 0 else 1) (cost a (d :: b) + 1)) (cost (c :: a) b + 1)
termination_by a b => a.length + b.length

@[simp] theorem cost_nil_left (b : List Char) : cost [] b = b.length := by
  rw [cost]

@[simp] theorem cost_nil_right (a : List Char) : cost a [] = a.length := by
  cases a <;> simp [cost]

theorem cost_cons_cons (c d : Char) (a b : List Char) :
    cost (c :: a) (d :: b) =
      min (min (cost a b + if c = d then 0 else 1) (cost a (d :: b) + 1))
        (cost (c :: a) b + 1) := by
  rw [cost]

theorem cost_self (a : List Char) : cost a a = 0 := by
  induction a with
  | nil => simp
  | cons c a ih => simp [cost_cons_cons, ih]

/-- The cost can be spent. -/
theorem edits_cost (a b : List Char) : Edits (cost a b) a b := by
  induction a generalizing b with
  | nil =>
    rw [cost_nil_left]
    exact edits_length_nil b
  | cons c a iha =>
    induction b with
    | nil =>
      rw [cost_nil_right]
      exact (edits_length_nil (c :: a)).symm
    | cons d b ihb =>
      have hmatch : Edits (cost a b + if c = d then 0 else 1) (c :: a) (d :: b) := by
        by_cases heq : c = d
        · subst heq
          simpa using (iha b).cons c
        · simpa [heq] using Edits.more (.substitute [] a c d) ((iha b).cons d)
      have hdelete : Edits (cost a (d :: b) + 1) (c :: a) (d :: b) :=
        .more (.delete [] a c) (iha (d :: b))
      have hinsert : Edits (cost (c :: a) b + 1) (c :: a) (d :: b) :=
        .more (.insert [] (c :: a) d) (ihb.cons d)
      rw [cost_cons_cons]
      exact edits_min (edits_min hmatch hdelete) hinsert

/-! ## What a single edit can save -/

theorem cost_cons_left_le (c : Char) (a b : List Char) : cost (c :: a) b ≤ cost a b + 1 := by
  cases b with
  | nil => simp
  | cons d b =>
    rw [cost_cons_cons]
    omega

theorem cost_cons_right_le (d : Char) (a b : List Char) : cost a (d :: b) ≤ cost a b + 1 := by
  cases a with
  | nil => simp
  | cons c a =>
    rw [cost_cons_cons]
    omega

theorem cost_le_cost_cons (c : Char) (a b : List Char) : cost a b ≤ cost (c :: a) b + 1 := by
  induction b with
  | nil =>
    simp only [cost_nil_right, List.length_cons]
    omega
  | cons d b ih =>
    have hlonger := cost_cons_right_le d a b
    rw [cost_cons_cons]
    omega

theorem cost_substitute_le (c c' : Char) (a b : List Char) :
    cost (c :: a) b ≤ cost (c' :: a) b + 1 := by
  induction b with
  | nil => simp
  | cons d b ih =>
    have hmatch : (if c = d then 0 else 1) ≤ 1 := by split <;> omega
    rw [cost_cons_cons, cost_cons_cons]
    omega

/-- What an edit saves behind a common character is no more than what it saves without it. -/
theorem cost_cons_le (h : ∀ target, cost a target ≤ cost b target + 1) (c : Char) :
    ∀ target, cost (c :: a) target ≤ cost (c :: b) target + 1 := by
  intro target
  induction target with
  | nil => simpa using h []
  | cons d target ih =>
    have hmatch := h target
    have hdelete := h (d :: target)
    rw [cost_cons_cons, cost_cons_cons]
    omega

theorem cost_append_le (h : ∀ target, cost a target ≤ cost b target + 1) (front : List Char) :
    ∀ target, cost (front ++ a) target ≤ cost (front ++ b) target + 1 := by
  induction front with
  | nil => exact h
  | cons c front ih => exact cost_cons_le ih c

/-- An edit lowers the cost by one at most. -/
theorem Edit.cost_le (h : Edit a b) (target : List Char) : cost a target ≤ cost b target + 1 := by
  cases h with
  | insert front back c => exact cost_append_le (cost_le_cost_cons c back) front target
  | delete front back c => exact cost_append_le (cost_cons_left_le c back) front target
  | substitute front back c d => exact cost_append_le (cost_substitute_le c d back) front target

/-- Fewer edits than the cost are not enough. -/
theorem cost_le_of_edits (h : Edits n a b) : cost a b ≤ n := by
  induction h with
  | none a => exact Nat.le_of_eq (cost_self a)
  | @more n a b target hedit _ ih =>
    have hsaved := hedit.cost_le target
    omega

theorem cost_isLeast (a b : List Char) : IsLeast {n | Edits n a b} (cost a b) :=
  ⟨edits_cost a b, fun _ h => cost_le_of_edits h⟩

/-! ## The rows of the table -/

/-- The costs of a text against `before`, and against what it grows to when the characters of a
second text are put in front of it one by one. -/
def costRow (long : List Char) : List Char → List Char → List Nat
  | before, [] => [cost long before]
  | before, d :: rest => cost long before :: costRow long (d :: before) rest

theorem costRow_eq_cons (long before rest : List Char) :
    costRow long before rest = cost long before :: (costRow long before rest).tail := by
  cases rest <;> rfl

/-- The entries of a next row are costs if those of the row above it are. -/
theorem nextEntries_costRow (c : Char) (long before rest : List Char) :
    nextEntries c rest (costRow long before rest) (cost (c :: long) before) =
      (costRow (c :: long) before rest).tail := by
  induction rest generalizing before with
  | nil => rfl
  | cons d rest ih =>
    show nextEntries c (d :: rest) (cost long before :: costRow long (d :: before) rest) _ =
      costRow (c :: long) (d :: before) rest
    rw [costRow_eq_cons long, nextEntries, ← costRow_eq_cons, ← cost_cons_cons, ih,
      ← costRow_eq_cons]

theorem nextRow_costRow (c : Char) (long short : List Char) :
    nextRow c short (costRow long [] short) = costRow (c :: long) [] short := by
  have hfirst : (costRow long [] short).headD 0 + 1 = cost (c :: long) [] := by
    rw [costRow_eq_cons]
    simp
  rw [nextRow, hfirst, nextEntries_costRow, ← costRow_eq_cons]

/-- The first row counts up: all characters are to be inserted. -/
theorem costRow_nil (before rest : List Char) :
    costRow [] before rest = List.range' before.length (rest.length + 1) := by
  induction rest generalizing before with
  | nil => simp [costRow]
  | cons d rest ih => simp [costRow, ih, List.range'_succ]

theorem foldl_nextRow (read long short : List Char) :
    long.foldl (fun row c => nextRow c short row) (costRow read [] short) =
      costRow (long.reverse ++ read) [] short := by
  induction long generalizing read with
  | nil => rfl
  | cons c long ih =>
    rw [List.foldl_cons, nextRow_costRow, ih, List.reverse_cons, List.append_assoc]
    rfl

theorem lastRow_eq (long short : List Char) :
    lastRow long short = costRow long.reverse [] short := by
  have hfirst : List.range (short.length + 1) = costRow [] [] short := by
    rw [costRow_nil, List.range_eq_range']
    rfl
  rw [lastRow, hfirst, foldl_nextRow, List.append_nil]

theorem getLastD_costRow (long before rest : List Char) :
    (costRow long before rest).getLastD 0 = cost long (rest.reverse ++ before) := by
  induction rest generalizing before with
  | nil => rfl
  | cons d rest ih =>
    have hlast : (costRow long before (d :: rest)).getLastD 0 =
        (costRow long (d :: before) rest).getLastD 0 := by
      rw [costRow, costRow_eq_cons long (d :: before)]
      simp
    rw [hlast, ih]
    simp

theorem getLastD_lastRow (long short : List Char) :
    (lastRow long short).getLastD 0 = cost long.reverse short.reverse := by
  rw [lastRow_eq, getLastD_costRow, List.append_nil]

/-! ## The distance -/

/-- Whichever of two texts the rows follow, the last entry is the least number of edits
between them. -/
theorem charDistance_isLeast (a b : List Char) : IsLeast {n | Edits n a b} (charDistance a b) := by
  unfold charDistance
  split
  · rw [getLastD_lastRow]
    simpa only [edits_reverse_iff] using cost_isLeast a.reverse b.reverse
  · -- The rows follow `a`, so the edits lead from `b` to `a`.
    rw [getLastD_lastRow]
    simpa only [edits_reverse_iff, edits_comm (a := b)] using cost_isLeast b.reverse a.reverse

/-- **Levenshtein distance.** Some sequence of `distance a b` insertions, deletions and
substitutions of single characters turns `a` into `b`, and no shorter sequence does. -/
theorem distance_isLeast (a b : String) :
    IsLeast {n | Edits n a.toList b.toList} (distance a b) :=
  charDistance_isLeast a.toList b.toList

example : distance "sitting" "kitten" = 3 ∧ distance "kitten" "sitting" = 3 := by decide

end BindingGraph.Name
