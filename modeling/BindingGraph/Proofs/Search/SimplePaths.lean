import BindingGraph.Search.Enumeration
import Mathlib.Data.List.Chain
import Mathlib.Data.List.Nodup
import Mathlib.Logic.Relation

/-!
# What the recursion lists

`Graph.pathsFrom` lists the simple paths to a target and nothing else (`mem_pathsFrom_iff`,
`mem_pathsFrom_nil_iff`), on every graph, cyclic or not. Where no list of dependencies
repeats a name, of two paths in the list the one whose names are declared earlier comes first
(`pairwise_precedes_pathsFrom`); since a path does not precede itself, no path is listed
twice (`nodup_pathsFrom`).

Any walk can be made simple by cutting its cycles out (`IsSimplePath.exists_cons`), so there is a
simple path wherever there is a walk (`exists_isSimplePath_iff`).
-/

namespace BindingGraph.Graph

variable {g : Graph} {source target name : String} {visited nodes : List String}

/-! ## Walks and simple paths -/

/-- A name followed by what can follow it on a walk. -/
theorem isWalk_cons_iff {rest : List String} :
    g.IsWalk (name :: rest) ↔
      (∀ next ∈ rest.head?, next ∈ g.dependencies name) ∧ g.IsWalk rest := by
  cases rest with
  | nil => simp [IsWalk]
  | cons next rest => simp [IsWalk]

theorem isWalk_iff_isChain :
    g.IsWalk nodes ↔ nodes.IsChain fun node next => next ∈ g.dependencies node := by
  induction nodes with
  | nil => simp [IsWalk]
  | cons name rest ih => rw [isWalk_cons_iff, List.isChain_cons, ih]

/-- What is left of a walk behind any of its places is a walk. -/
theorem IsWalk.of_append {front : List String} (h : g.IsWalk (front ++ nodes)) :
    g.IsWalk nodes := by
  induction front with
  | nil => exact h
  | cons first front ih => exact ih (isWalk_cons_iff.mp h).2

/-- The path of a single name. -/
theorem isSimplePath_singleton : g.IsSimplePath target target [target] :=
  ⟨rfl, rfl, trivial, List.nodup_singleton _⟩

theorem IsSimplePath.eq_cons (h : g.IsSimplePath source target nodes) :
    ∃ rest, nodes = source :: rest := by
  cases nodes with
  | nil => exact absurd h.head (by simp)
  | cons first rest =>
    have hfirst : first = source := by simpa using h.head
    exact ⟨rest, by rw [hfirst]⟩

/-- A simple path that starts at its target ends there. -/
theorem IsSimplePath.eq_singleton (h : g.IsSimplePath target target nodes) : nodes = [target] := by
  obtain ⟨rest, rfl⟩ := h.eq_cons
  cases rest with
  | nil => rfl
  | cons next rest =>
    have hlast := h.last
    rw [List.getLast?_cons_cons] at hlast
    exact absurd (List.mem_of_getLast? hlast) (List.nodup_cons.mp h.nodup).1

/-- A simple path is continued at the front by a name that depends on its first name, if that is not
on it. -/
theorem isSimplePath_cons_iff {next : String} {rest : List String} :
    g.IsSimplePath name target (name :: next :: rest) ↔
      next ∈ g.dependencies name ∧ name ∉ next :: rest ∧
        g.IsSimplePath next target (next :: rest) := by
  constructor
  · intro h
    have hnodup := List.nodup_cons.mp h.nodup
    refine ⟨h.walk.1, hnodup.1, rfl, ?_, h.walk.2, hnodup.2⟩
    rw [← h.last, List.getLast?_cons_cons]
  · rintro ⟨hmem, hnew, h⟩
    refine ⟨rfl, ?_, ⟨hmem, h.walk⟩, List.nodup_cons.mpr ⟨hnew, h.nodup⟩⟩
    rw [List.getLast?_cons_cons, h.last]

/-- What is left of a simple path behind any of its places is a simple path. -/
theorem IsSimplePath.of_append {front rest : List String}
    (h : g.IsSimplePath source target (front ++ name :: rest)) :
    g.IsSimplePath name target (name :: rest) := by
  refine ⟨rfl, ?_, h.walk.of_append, (List.nodup_append.mp h.nodup).2.1⟩
  rw [← h.last, List.getLast?_append_of_ne_nil _ (List.cons_ne_nil _ _)]

/-! ## The recursion step by step -/

theorem pathsFrom_target : g.pathsFrom target visited target = [visited ++ [target]] := by
  rw [pathsFrom_eq, if_pos rfl]

/-- The paths through a name that is not the target are those through its dependencies that are not
on the walk. -/
theorem mem_pathsFrom_of_ne (hname : name ≠ target) :
    nodes ∈ g.pathsFrom target visited name ↔
      ∃ next ∈ g.dependencies name, next ∉ visited ++ [name] ∧
        nodes ∈ g.pathsFrom target (visited ++ [name]) next := by
  rw [pathsFrom_eq, if_neg hname, List.mem_flatMap]
  refine exists_congr fun next => and_congr_right fun _ => ?_
  by_cases hnext : next ∈ visited ++ [name]
  · simp [hnext]
  · rw [if_neg hnext]
    exact (and_iff_right hnext).symm

/-! ## Soundness and completeness -/

/-- Every listed path goes on from `visited` by a simple path that keeps off `visited`. -/
theorem exists_of_mem_pathsFrom (h : nodes ∈ g.pathsFrom target visited name) :
    ∃ rest, nodes = visited ++ name :: rest ∧ g.IsSimplePath name target (name :: rest) ∧
      ∀ other ∈ rest, other ∉ visited := by
  induction visited, name using pathsFrom.induct g target with
  | case1 visited =>
    rw [pathsFrom_target, List.mem_singleton] at h
    exact ⟨[], h, isSimplePath_singleton, by simp⟩
  | case2 visited name hname ih =>
    obtain ⟨next, hnext, hnew, hmem⟩ := (mem_pathsFrom_of_ne hname).mp h
    obtain ⟨rest, rfl, hpath, hrest⟩ := ih next hnext hnew hmem
    -- Neither `next` nor anything behind it is on the walk so far, of which `name` is the last.
    have hkeeps : ∀ other ∈ next :: rest, other ∉ visited ++ [name] := by
      intro other hother
      rcases List.mem_cons.mp hother with rfl | hother
      · exact hnew
      · exact hrest other hother
    have hoff : name ∉ next :: rest := fun hmem => hkeeps name hmem (by simp)
    refine ⟨next :: rest, by simp, isSimplePath_cons_iff.mpr ⟨hnext, hoff, hpath⟩, ?_⟩
    intro other hother hvisited
    exact hkeeps other hother (List.mem_append_left _ hvisited)

/-- A path by way of a dependency goes on with it. -/
theorem exists_of_mem_branch {next : String}
    (h : nodes ∈ if next ∈ visited ++ [name] then []
      else g.pathsFrom target (visited ++ [name]) next) :
    ∃ rest, nodes = visited ++ name :: next :: rest := by
  split at h
  · cases h
  · obtain ⟨rest, rfl, -⟩ := exists_of_mem_pathsFrom h
    exact ⟨rest, by simp⟩

/-- Every simple path that keeps off `visited` is listed. -/
theorem mem_pathsFrom_of_isSimplePath {rest : List String}
    (h : g.IsSimplePath name target (name :: rest)) (hrest : ∀ other ∈ rest, other ∉ visited) :
    visited ++ name :: rest ∈ g.pathsFrom target visited name := by
  induction rest generalizing visited name with
  | nil =>
    have hname : name = target := by simpa using h.last
    rw [hname, pathsFrom_target]
    exact List.mem_singleton_self _
  | cons next rest ih =>
    have hname : name ≠ target := by
      intro heq
      subst heq
      simpa using h.eq_singleton
    obtain ⟨hnext, hoff, hpath⟩ := isSimplePath_cons_iff.mp h
    have hkeeps : ∀ other ∈ next :: rest, other ∉ visited ++ [name] := by
      intro other hother hmem
      rcases List.mem_append.mp hmem with hmem | hmem
      · exact hrest other hother hmem
      · exact hoff (List.mem_singleton.mp hmem ▸ hother)
    refine (mem_pathsFrom_of_ne hname).mpr ⟨next, hnext, hkeeps next List.mem_cons_self, ?_⟩
    have := ih hpath fun other hother => hkeeps other (List.mem_cons_of_mem _ hother)
    simpa using this

/-- The recursion lists the ways to go on from `visited` by a simple path that keeps
off `visited`. -/
theorem mem_pathsFrom_iff :
    nodes ∈ g.pathsFrom target visited name ↔
      ∃ rest, nodes = visited ++ name :: rest ∧ g.IsSimplePath name target (name :: rest) ∧
        ∀ other ∈ rest, other ∉ visited := by
  constructor
  · exact exists_of_mem_pathsFrom
  · rintro ⟨rest, rfl, hpath, hrest⟩
    exact mem_pathsFrom_of_isSimplePath hpath hrest

/-- From the source, the recursion lists exactly the simple paths. -/
theorem mem_pathsFrom_nil_iff :
    nodes ∈ g.pathsFrom target [] source ↔ g.IsSimplePath source target nodes := by
  rw [mem_pathsFrom_iff]
  constructor
  · rintro ⟨rest, rfl, hpath, -⟩
    exact hpath
  · intro h
    obtain ⟨rest, rfl⟩ := h.eq_cons
    exact ⟨rest, rfl, h, by simp⟩

/-! ## The order of discovery -/

/-- The paths part behind a common front, and the first goes on with the name that stands earlier
among the dependencies of the name where they part. -/
def Precedes (g : Graph) (first second : List String) : Prop :=
  ∃ front joint a b rest rest',
    first = front ++ joint :: a :: rest ∧ second = front ++ joint :: b :: rest' ∧
      (g.dependencies joint).idxOf a < (g.dependencies joint).idxOf b

theorem pairwise_idxOf_lt {names : List String} (h : names.Nodup) :
    names.Pairwise fun a b => names.idxOf a < names.idxOf b := by
  rw [List.pairwise_iff_getElem]
  intro i j hi hj hij
  rw [h.idxOf_getElem i hi, h.idxOf_getElem j hj]
  exact hij

/-- The recursion lists paths in the order of their dependencies. -/
theorem pairwise_precedes_pathsFrom (hdeps : ∀ name, (g.dependencies name).Nodup) :
    (g.pathsFrom target visited name).Pairwise g.Precedes := by
  induction visited, name using pathsFrom.induct g target with
  | case1 visited =>
    rw [pathsFrom_target]
    exact List.pairwise_singleton _ _
  | case2 visited name hname ih =>
    rw [pathsFrom_eq, if_neg hname, List.pairwise_flatMap]
    constructor
    · intro next hnext
      split
      · exact List.Pairwise.nil
      · rename_i hnew
        exact ih next hnext hnew
    · -- Paths by way of different dependencies part at `name`.
      refine (pairwise_idxOf_lt (hdeps name)).imp fun {a b} hlt first hfirst second hsecond => ?_
      obtain ⟨rest, rfl⟩ := exists_of_mem_branch hfirst
      obtain ⟨rest', rfl⟩ := exists_of_mem_branch hsecond
      exact ⟨visited, name, a, b, rest, rest', rfl, rfl, hlt⟩

/-- Two lists part at one place only. -/
theorem eq_of_parts {α : Type} {front front' rest rest' tail tail' : List α} {a b a' b' : α}
    (hfirst : front ++ a :: rest = front' ++ a' :: rest')
    (hsecond : front ++ b :: tail = front' ++ b' :: tail') (hne : a ≠ b) (hne' : a' ≠ b') :
    front = front' ∧ a = a' ∧ b = b' := by
  induction front generalizing front' with
  | nil =>
    cases front' with
    | nil => exact ⟨rfl, (List.cons.inj hfirst).1, (List.cons.inj hsecond).1⟩
    | cons x front' =>
      exact absurd ((List.cons.inj hfirst).1.trans (List.cons.inj hsecond).1.symm) hne
  | cons x front ih =>
    cases front' with
    | nil =>
      exact absurd ((List.cons.inj hfirst).1.symm.trans (List.cons.inj hsecond).1) hne'
    | cons x' front' =>
      obtain ⟨hx, hfirst⟩ := List.cons.inj hfirst
      obtain ⟨hfront, ha, hb⟩ := ih hfirst (List.cons.inj hsecond).2
      exact ⟨by rw [hx, hfront], ha, hb⟩

/-- Wherever two such paths part, it is the earlier name that the first goes on with. -/
theorem Precedes.idxOf_lt {front rest rest' : List String} {joint a b : String}
    (h : g.Precedes (front ++ joint :: a :: rest) (front ++ joint :: b :: rest')) (hne : a ≠ b) :
    (g.dependencies joint).idxOf a < (g.dependencies joint).idxOf b := by
  obtain ⟨front', joint', a', b', tail, tail', hfirst, hsecond, hlt⟩ := h
  have hne' : a' ≠ b' := by
    rintro rfl
    exact Nat.lt_irrefl _ hlt
  have hsplit (xs ys : List String) (x y : String) :
      xs ++ x :: y :: ys = (xs ++ [x]) ++ y :: ys := by simp
  rw [hsplit, hsplit front'] at hfirst hsecond
  obtain ⟨hfront, rfl, rfl⟩ := eq_of_parts hfirst hsecond hne hne'
  have hjoint : joint = joint' := by simpa using (List.append_inj' hfront rfl).2
  rw [hjoint]
  exact hlt

theorem not_precedes_self : ¬ g.Precedes nodes nodes := by
  rintro ⟨front, joint, a, b, rest, rest', rfl, heq, hlt⟩
  have : a = b := by simp at heq; exact heq.1
  rw [this] at hlt
  exact Nat.lt_irrefl _ hlt

/-- Where no dependency is repeated, no path is listed twice. -/
theorem nodup_pathsFrom (hdeps : ∀ name, (g.dependencies name).Nodup) :
    (g.pathsFrom target visited name).Nodup := by
  refine (pairwise_precedes_pathsFrom hdeps).imp ?_
  intro first second h heq
  rw [heq] at h
  exact not_precedes_self h

/-! ## Reachability -/

/-- `target` is reached from `source` along dependency edges, any number of them. -/
def Reaches (g : Graph) : String → String → Prop :=
  Relation.ReflTransGen fun node dependency => dependency ∈ g.dependencies node

/-- A simple path is continued at the front by a dependent, cutting out the cycle that
this closes. -/
theorem IsSimplePath.exists_cons {next : String} (h : g.IsSimplePath next target nodes)
    (hnext : next ∈ g.dependencies name) : ∃ nodes', g.IsSimplePath name target nodes' := by
  by_cases hmem : name ∈ nodes
  · obtain ⟨front, rest, rfl⟩ := List.append_of_mem hmem
    exact ⟨name :: rest, h.of_append⟩
  · obtain ⟨rest, rfl⟩ := h.eq_cons
    exact ⟨name :: next :: rest, isSimplePath_cons_iff.mpr ⟨hnext, hmem, h⟩⟩

theorem IsSimplePath.reaches (h : g.IsSimplePath source target nodes) :
    g.Reaches source target := by
  induction nodes generalizing source with
  | nil => exact absurd h.head (by simp)
  | cons first rest ih =>
    obtain rfl : first = source := by simpa using h.head
    cases rest with
    | nil =>
      obtain rfl : first = target := by simpa using h.last
      exact Relation.ReflTransGen.refl
    | cons next rest =>
      obtain ⟨hnext, -, hpath⟩ := isSimplePath_cons_iff.mp h
      exact Relation.ReflTransGen.head hnext (ih hpath)

/-- There is a simple path wherever there is any walk. -/
theorem exists_isSimplePath_iff :
    (∃ nodes, g.IsSimplePath source target nodes) ↔ g.Reaches source target := by
  constructor
  · rintro ⟨nodes, h⟩
    exact h.reaches
  · intro h
    induction h using Relation.ReflTransGen.head_induction_on with
    | refl => exact ⟨[target], isSimplePath_singleton⟩
    | head hnext _ ih =>
      obtain ⟨nodes, hpath⟩ := ih
      exact hpath.exists_cons hnext

/-- The recursion lists something exactly when the target is reached. -/
theorem pathsFrom_nil_ne_nil_iff :
    g.pathsFrom target [] source ≠ [] ↔ g.Reaches source target := by
  rw [← exists_isSimplePath_iff]
  constructor
  · intro hne
    obtain ⟨nodes, hmem⟩ := List.exists_mem_of_ne_nil _ hne
    exact ⟨nodes, mem_pathsFrom_nil_iff.mp hmem⟩
  · rintro ⟨nodes, h⟩
    exact List.ne_nil_of_mem (mem_pathsFrom_nil_iff.mpr h)

end BindingGraph.Graph
