import BindingGraph.Search.Trail
import Mathlib.Data.List.Induction

/-!
# Trails under any steps

Anyone may push names onto a trail and pop names off it, in any order (`Trail.after`). Its set
cannot count, so a name that is on the stack twice is forgotten when the first of the two is popped,
and only known again once it is pushed again. This is all that sets the two apart: after any steps
the set knows exactly the names on the stack that have been pushed again since they were last popped
(`Trail.contains_after_iff`). A name is known whenever it is on the stack, all along the way, if and
only if no pop leaves another one of it there (`Trail.known_all_along_iff`).
-/

namespace BindingGraph.Trail

/-- What can be done to a trail. -/
inductive Step where
  | push (name : String)
  | pop

/-- The trail after a step. -/
def take (t : Trail) : Step → Trail
  | .push name => t.push name
  | .pop => t.pop.2

/-- What the empty trail becomes by steps. -/
def after (steps : List Step) : Trail := steps.foldl take {}

variable {t : Trail} {name other : String} {step : Step} {steps before rest : List Step}

theorem after_concat : after (steps ++ [step]) = (after steps).take step := by
  rw [after, List.foldl_append]
  rfl

/-! ## What one step does -/

theorem contains_push : (t.push other).contains name ↔ name = other ∨ t.contains name := by
  simp only [contains, push, List.contains_iff_mem]
  split
  · rename_i hother
    constructor
    · exact .inr
    · rintro (rfl | hname)
      · exact hother
      · exact hname
  · exact List.mem_cons

theorem mem_current_push : name ∈ (t.push other).current ↔ name = other ∨ name ∈ t.current := by
  simp [current, push, or_comm]

/-- The popped name is known no longer, even if there is another one of it on the stack. -/
theorem contains_pop : t.pop.2.contains name ↔ t.peek? ≠ some name ∧ t.contains name := by
  obtain ⟨stack, visited⟩ := t
  cases stack with
  | nil => simp [contains, pop, peek?]
  | cons last stack =>
    simp only [contains, pop, peek?, List.contains_iff_mem, List.mem_filter, List.head?_cons]
    grind

/-- Any other name stays on the stack. -/
theorem mem_current_pop (h : t.peek? ≠ some name) : name ∈ t.pop.2.current ↔ name ∈ t.current := by
  obtain ⟨stack, visited⟩ := t
  cases stack with
  | nil => rfl
  | cons last stack =>
    have hne : name ≠ last := fun heq => h (congrArg some heq.symm)
    simp [current, pop, hne]

/-! ## What all steps do -/

/-- Every pop of the name is followed by a push of it. -/
def PushedAgain (steps : List Step) (name : String) : Prop :=
  ∀ before rest, steps = before ++ .pop :: rest → (after before).peek? = some name →
    .push name ∈ rest

theorem pushedAgain_concat_iff :
    PushedAgain (steps ++ [step]) name ↔
      step = .push name ∨ (step = .pop → (after steps).peek? ≠ some name) ∧
      PushedAgain steps name := by
  constructor
  · intro h
    by_cases hstep : step = .push name
    · exact .inl hstep
    · refine .inr ⟨?_, ?_⟩
      · rintro rfl hpeek
        cases h steps [] rfl hpeek
      · rintro before rest rfl hpeek
        have hmem := h before (rest ++ [step]) (by simp) hpeek
        rcases List.mem_append.mp hmem with hmem | hmem
        · exact hmem
        · exact absurd (List.mem_singleton.mp hmem).symm hstep
  · rintro h before rest heq hpeek
    -- The pop is the last step itself, which nothing follows, or one of the steps before it.
    rcases List.eq_nil_or_concat rest with rfl | ⟨rest, last, rfl⟩
    · obtain ⟨rfl, hstep⟩ := List.append_inj' heq rfl
      obtain rfl := List.singleton_inj.mp hstep
      rcases h with h | ⟨h, -⟩
      · cases h
      · exact absurd hpeek (h rfl)
    · rw [List.concat_eq_append] at heq ⊢
      rw [← List.cons_append, ← List.append_assoc] at heq
      obtain ⟨rfl, hstep⟩ := List.append_inj' heq rfl
      obtain rfl := List.singleton_inj.mp hstep
      rcases h with rfl | ⟨-, h⟩
      · exact List.mem_append_right _ (List.mem_singleton.mpr rfl)
      · exact List.mem_append_left _ (h before rest rfl hpeek)

/-- The set knows the names on the stack that have been pushed again since they were last popped. -/
theorem contains_after_iff (steps : List Step) (name : String) :
    (after steps).contains name ↔ name ∈ (after steps).current ∧ PushedAgain steps name := by
  induction steps using List.reverseRecOn with
  | nil => simp [after, contains, current]
  | append_singleton steps step ih =>
    rw [after_concat, pushedAgain_concat_iff]
    cases step with
    | push other =>
      rw [take, contains_push, mem_current_push, ih]
      grind
    | pop =>
      rw [take, contains_pop, ih]
      constructor
      -- A pop of the name itself refutes both sides, whether or not the name is left on the stack.
      · rintro ⟨hpeek, hmem, hagain⟩
        exact ⟨(mem_current_pop hpeek).mpr hmem, .inr ⟨fun _ => hpeek, hagain⟩⟩
      · rintro ⟨hmem, h | ⟨hpeek, hagain⟩⟩
        · cases h
        · have hpeek := hpeek rfl
          exact ⟨hpeek, (mem_current_pop hpeek).mp hmem, hagain⟩

/-- A name gets onto the stack by a push. -/
theorem mem_current_or_push_mem (h : name ∈ (after (before ++ rest)).current) :
    name ∈ (after before).current ∨ .push name ∈ rest := by
  induction rest using List.reverseRecOn with
  | nil => exact .inl (by rwa [List.append_nil] at h)
  | append_singleton rest step ih =>
    rw [← List.append_assoc, after_concat] at h
    cases step with
    | push other =>
      rcases mem_current_push.mp h with rfl | h
      · exact .inr (by simp)
      · exact (ih h).imp_right (List.mem_append_left _)
    | pop =>
      have hmem : name ∈ (after (before ++ rest)).current := by
        rw [current, List.mem_reverse] at h ⊢
        rw [take, stack_pop] at h
        exact List.mem_of_mem_tail h
      exact (ih hmem).imp_right (List.mem_append_left _)

/-- All along the steps a name is known whenever it is on the stack if and only if no pop of it
leaves another one there. -/
theorem known_all_along_iff :
    (∀ front, front <+: steps → ((after front).contains name ↔ name ∈ (after front).current)) ↔
      ∀ before, before ++ [.pop] <+: steps → (after before).peek? = some name →
        name ∉ (after (before ++ [.pop])).current := by
  constructor
  · intro h before hprefix hpeek hmem
    have hknown := (h _ hprefix).mpr hmem
    rw [after_concat, take, contains_pop] at hknown
    exact hknown.1 hpeek
  · intro h front hfront
    rw [contains_after_iff, and_iff_left_iff_imp]
    rintro hmem before rest rfl hpeek
    rw [List.append_cons] at hfront hmem
    have hgone := h before ((List.prefix_append _ rest).trans hfront) hpeek
    exact (mem_current_or_push_mem hmem).resolve_left hgone

theorem isEmpty_after_iff (steps : List Step) :
    (after steps).isEmpty ↔ (after steps).depth = 0 := by
  rw [isEmpty, depth, Bool.and_eq_true, List.isEmpty_iff, List.isEmpty_iff, List.length_eq_zero_iff,
    and_iff_left_iff_imp]
  intro hstack
  apply List.eq_nil_iff_forall_not_mem.mpr
  intro name hname
  have hmem := ((contains_after_iff steps name).mp (List.contains_iff_mem.mpr hname)).1
  simp [current, hstack] at hmem

/-- **What a trail knows.** After any pushes and pops the set knows a name if and only if it is on
the stack and every pop of it is followed by another push. So the two agree on a name all along if
and only if no pop of it leaves another one of it on the stack. Nothing else is ever known, so a
trail counts as empty exactly if its depth is zero. -/
theorem knows_names_pushed_again (steps : List Step) :
    (∀ name, (after steps).contains name ↔ name ∈ (after steps).current ∧ PushedAgain steps name) ∧
    (∀ name,
      (∀ front, front <+: steps → ((after front).contains name ↔ name ∈ (after front).current)) ↔
        ∀ before, before ++ [.pop] <+: steps → (after before).peek? = some name →
          name ∉ (after (before ++ [.pop])).current) ∧
    ((after steps).isEmpty ↔ (after steps).depth = 0) :=
  ⟨contains_after_iff steps, fun _ => known_all_along_iff, isEmpty_after_iff steps⟩

/-- A name that is pushed twice and popped once is still on the stack, but no longer known. -/
theorem forgets_name_on_stack :
    let t := after [.push "a", .push "a", .pop]
    t.current = ["a"] ∧ t.contains "a" = false := by
  decide

end BindingGraph.Trail
