/-!
# Trails

A trail remembers the names on the current walk of a search, as a stack, with a set beside it that
answers whether a name is on the walk. Pushing a name adds it to both, popping removes it from both.
-/

namespace BindingGraph

/-- The names on the current walk, latest first, and the names held to be on it. -/
structure Trail where
  stack : List String := []
  visited : List String := []

namespace Trail

/-- Step onto a name. -/
def push (t : Trail) (name : String) : Trail where
  stack := name :: t.stack
  visited := if name ∈ t.visited then t.visited else name :: t.visited

/-- Step back off the latest name. -/
def pop (t : Trail) : Option String × Trail :=
  match t.stack with
  | [] => (none, t)
  | name :: rest => (some name, ⟨rest, t.visited.filter (· ≠ name)⟩)

theorem stack_pop (t : Trail) : t.pop.2.stack = t.stack.tail := by
  unfold pop
  split <;> simp_all

/-- Whether a name is on the walk. -/
def contains (t : Trail) (name : String) : Bool := t.visited.contains name

/-- The latest name. -/
def peek? (t : Trail) : Option String := t.stack.head?

/-- How many names are on the walk. -/
def depth (t : Trail) : Nat := t.stack.length

/-- Whether nothing is on the walk. -/
def isEmpty (t : Trail) : Bool := t.stack.isEmpty && t.visited.isEmpty

/-- The names on the walk, earliest first. -/
def current (t : Trail) : List String := t.stack.reverse

/-- Step back until nothing is left on the stack. -/
def unwind (t : Trail) : Trail :=
  ⟨[], t.stack.foldl (fun visited name => visited.filter (· ≠ name)) t.visited⟩

/-- The set holds exactly the names on the stack, and no name is on the stack twice. -/
structure Exact (t : Trail) : Prop where
  mem_visited_iff : ∀ name, name ∈ t.visited ↔ name ∈ t.stack
  stack_nodup : t.stack.Nodup

theorem Exact.empty : Exact {} := ⟨by simp, List.nodup_nil⟩

theorem Exact.contains_iff {t : Trail} (h : t.Exact) {name : String} :
    t.contains name ↔ name ∈ t.stack := by
  simp [contains, h.mem_visited_iff]

theorem Exact.push {t : Trail} (h : t.Exact) {name : String} (hname : t.contains name = false) :
    (t.push name).Exact := by
  have hnot : name ∉ t.stack := fun hmem => by simp [h.contains_iff.mpr hmem] at hname
  refine ⟨fun other => ?_, List.nodup_cons.mpr ⟨hnot, h.stack_nodup⟩⟩
  have := h.mem_visited_iff other
  simp only [Trail.push]
  split <;> grind

/-- Stepping onto a new name and back again changes nothing that can be asked. -/
theorem Exact.pop {t : Trail} (h : t.Exact) : t.pop.2.Exact := by
  unfold Trail.pop
  split
  · exact h
  · rename_i name rest heq
    have hnodup := heq ▸ h.stack_nodup
    refine ⟨fun other => ?_, (List.nodup_cons.mp hnodup).2⟩
    have := h.mem_visited_iff other
    have hnot := (List.nodup_cons.mp hnodup).1
    rw [heq] at this
    simp only [List.mem_filter, decide_eq_true_eq]
    grind

end Trail

end BindingGraph
