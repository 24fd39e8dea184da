import BindingGraph.Workspace.Error

/-!
# Steps that succeed

A sequence of steps succeeds when each of them does, in the tree that the steps before it have
left (`bind_eq_ok_iff`, `run_bind_eq_ok_iff`), so a run that has succeeded can be taken apart step
by step.
-/

namespace BindingGraph

section Steps

variable {ε σ α β : Type}

theorem bind_eq_ok_iff {x : Except ε α} {f : α → Except ε β} {b : β} :
    x >>= f = .ok b ↔ ∃ a, x = .ok a ∧ f a = .ok b := by
  cases x with
  | error error =>
    constructor
    · intro h
      cases h
    · rintro ⟨a, h, -⟩
      cases h
  | ok a =>
    constructor
    · intro h
      exact ⟨a, rfl, h⟩
    · rintro ⟨_, ⟨⟩, h⟩
      exact h

/-- A step that fails ends the sequence, in the tree that it leaves. -/
theorem run_bind {x : ExceptT ε (StateM σ) α} {f : α → ExceptT ε (StateM σ) β} {s : σ} :
    (x >>= f).run s =
      match x.run s with
      | (.ok a, middle) => (f a).run middle
      | (.error error, middle) => (.error error, middle) := by
  show (ExceptT.bindCont f (x.run s).1) (x.run s).2 = _
  rcases x.run s with ⟨_ | a, middle⟩ <;> rfl

theorem run_bind_of_ok {x : ExceptT ε (StateM σ) α} {f : α → ExceptT ε (StateM σ) β} {s s' : σ}
    {a : α} (h : x.run s = (.ok a, s')) : (x >>= f).run s = (f a).run s' := by
  rw [run_bind, h]

theorem run_bind_of_error {x : ExceptT ε (StateM σ) α} {f : α → ExceptT ε (StateM σ) β} {s s' : σ}
    {error : ε} (h : x.run s = (.error error, s')) : (x >>= f).run s = (.error error, s') := by
  rw [run_bind, h]

theorem run_bind_eq_ok_iff {x : ExceptT ε (StateM σ) α} {f : α → ExceptT ε (StateM σ) β} {s s' : σ}
    {b : β} :
    (x >>= f).run s = (.ok b, s') ↔
      ∃ a middle, x.run s = (.ok a, middle) ∧ (f a).run middle = (.ok b, s') := by
  rw [run_bind]
  rcases x.run s with ⟨error | a, middle⟩
  · constructor
    · intro h
      cases h
    · rintro ⟨a, middle', h, -⟩
      cases h
  · constructor
    · intro h
      exact ⟨a, middle, rfl, h⟩
    · rintro ⟨_, _, ⟨⟩, h⟩
      exact h

/-- What is done with the result of a step, be it a success or a failure. -/
theorem run_result_bind {x : ExceptT ε (StateM σ) α} {f : Except ε α → StateM σ β} {s s' : σ}
    {result : Except ε α} (h : x.run s = (result, s')) :
    (x.run >>= f).run s = (f result).run s' := by
  show (f (x.run s).1).run (x.run s).2 = _
  rw [h]

theorem run_get {s : σ} : (get : ExceptT ε (StateM σ) σ).run s = (.ok s, s) := rfl

theorem run_throw_ne_ok {error : ε} {a : α} {s s' : σ} :
    (throw error : ExceptT ε (StateM σ) α).run s ≠ (.ok a, s') := by
  intro h
  cases h

theorem run_tryCatch {x : ExceptT ε (StateM σ) α} {handler : ε → ExceptT ε (StateM σ) α} {s : σ} :
    (tryCatch x handler).run s =
      match x.run s with
      | (.ok a, middle) => (.ok a, middle)
      | (.error error, middle) => (handler error).run middle := by
  show (ExceptT.tryCatch x handler).run s = _
  unfold ExceptT.tryCatch
  show (match (x.run s).1 with | .ok a => _ | .error e => _ : StateM σ _) (x.run s).2 = _
  rcases x.run s with ⟨_ | a, middle⟩ <;> rfl

/-- A step whose failures only lead to other failures succeeds if it does so at once. -/
theorem run_tryCatch_eq_ok {x : ExceptT ε (StateM σ) α} {handler : ε → ExceptT ε (StateM σ) α}
    {s s' : σ} {a : α} (hhandler : ∀ error middle, (handler error).run middle ≠ (.ok a, s'))
    (h : (tryCatch x handler).run s = (.ok a, s')) : x.run s = (.ok a, s') := by
  rw [run_tryCatch] at h
  rcases hx : x.run s with ⟨error | b, middle⟩
  · rw [hx] at h
    exact absurd h (hhandler error middle)
  · rw [hx] at h
    exact h

end Steps

namespace FileAction

theorem run_ask_eq_ok_iff {α : Type} {question : FileTree → Except FileError α} {t t' : FileTree}
    {a : α} :
    (ask question).run t = (.ok a, t') ↔ question t = .ok a ∧ t' = t := by
  show (question t, t) = (.ok a, t') ↔ _
  rw [Prod.mk.injEq, eq_comm (a := t)]

/-- A question changes nothing, whatever the answer. -/
theorem run_ask_bind {α β : Type} {question : FileTree → Except FileError α} {f : α → FileAction β}
    {t : FileTree} :
    (ask question >>= f).run t =
      match question t with
      | .ok a => (f a).run t
      | .error error => (.error error, t) := by
  rw [run_bind, show (ask question).run t = (question t, t) from rfl]
  cases question t <;> rfl

theorem run_ask_bind_eq_ok_iff {α β : Type} {question : FileTree → Except FileError α}
    {f : α → FileAction β} {t t' : FileTree} {b : β} :
    (ask question >>= f).run t = (.ok b, t') ↔
      ∃ a, question t = .ok a ∧ (f a).run t = (.ok b, t') := by
  rw [run_bind_eq_ok_iff]
  constructor
  · rintro ⟨a, middle, hask, h⟩
    obtain ⟨hquestion, rfl⟩ := run_ask_eq_ok_iff.mp hask
    exact ⟨a, hquestion, h⟩
  · rintro ⟨a, hquestion, h⟩
    exact ⟨a, t, run_ask_eq_ok_iff.mpr ⟨hquestion, rfl⟩, h⟩

theorem run_modify_eq_ok_iff {change : FileTree → FileTree} {t t' : FileTree} {result : PUnit} :
    (modify change : FileAction PUnit).run t = (.ok result, t') ↔ t' = change t := by
  show (Except.ok PUnit.unit, change t) = (.ok result, t') ↔ _
  rw [Prod.mk.injEq, eq_comm (a := t')]
  exact and_iff_right rfl

end FileAction

/-- A step on files is the same step with its failures reported. -/
theorem Workspace.Action.run_onFiles {α : Type} (report : FileError → Error) (step : FileAction α)
    (t : FileTree) :
    (onFiles report step).run t = ((step.run t).1.mapError report, (step.run t).2) := rfl

/-- The answer to a question leaves the tree as it is. -/
theorem Workspace.Action.run_ask {α : Type} (question : FileTree → α) (t : FileTree) :
    (ask question).run t = (.ok (question t), t) := rfl

theorem Workspace.Action.run_onFiles_eq_ok_iff {α : Type} {report : FileError → Error}
    {step : FileAction α} {t t' : FileTree} {a : α} :
    (onFiles report step).run t = (.ok a, t') ↔ step.run t = (.ok a, t') := by
  rw [run_onFiles]
  rcases step.run t with ⟨error | b, middle⟩
  · exact ⟨fun h => (by cases h), fun h => (by cases h)⟩
  · exact ⟨fun h => (by cases h; rfl), fun h => (by cases h; rfl)⟩

end BindingGraph
