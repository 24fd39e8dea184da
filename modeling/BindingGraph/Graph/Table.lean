import BindingGraph.Graph.Basic

/-!
# Graphs given as a table

A table lists each key once, in increasing order, with its dependencies as they were given: repeats
are kept, and a dependency that is not itself a key is not a node. Setting a key that is there
already replaces its list.
-/

namespace BindingGraph

/-- A table from keys to dependency lists, in increasing order of keys. -/
structure TableGraph where
  rows : List (String × List String)
  sorted : rows.Pairwise fun a b => a.1 < b.1

namespace TableGraph

/-- The table without rows. -/
def empty : TableGraph := ⟨[], .nil⟩

/-- Put a row where its key belongs, in place of a row with the same key. -/
def insertRow (row : String × List String) :
    List (String × List String) → List (String × List String)
  | [] => [row]
  | other :: rest =>
    if row.1 < other.1 then row :: other :: rest
    else if row.1 = other.1 then row :: rest
    else other :: insertRow row rest

theorem mem_insertRow {row x : String × List String} {rows : List (String × List String)}
    (h : x ∈ insertRow row rows) : x = row ∨ x ∈ rows := by
  induction rows with
  | nil => simpa [insertRow] using h
  | cons other rest ih =>
    simp only [insertRow] at h
    split at h
    · simpa using h
    · split at h <;> grind

theorem pairwise_insertRow {row : String × List String} {rows : List (String × List String)}
    (h : rows.Pairwise fun a b => a.1 < b.1) :
    (insertRow row rows).Pairwise fun a b => a.1 < b.1 := by
  induction rows with
  | nil => simp [insertRow]
  | cons other rest ih =>
    have hrest := List.pairwise_cons.mp h
    simp only [insertRow]
    split
    · rename_i hlt
      refine List.pairwise_cons.mpr ⟨fun x hx => ?_, h⟩
      rcases List.mem_cons.mp hx with rfl | hx
      · exact hlt
      · exact String.lt_trans hlt (hrest.1 x hx)
    · split
      · rename_i heq
        exact List.pairwise_cons.mpr ⟨fun x hx => heq ▸ hrest.1 x hx, hrest.2⟩
      · refine List.pairwise_cons.mpr ⟨fun x hx => ?_, ih hrest.2⟩
        rcases mem_insertRow hx with rfl | hx
        · grind
        · exact hrest.1 x hx

/-- Set the dependencies of a key. -/
def insert (t : TableGraph) (key : String) (dependencies : List String) : TableGraph :=
  ⟨insertRow (key, dependencies) t.rows, pairwise_insertRow t.sorted⟩

/-- The table of a list of bindings; of two with one key the later counts. -/
def ofBindings (bindings : List (String × List String)) : TableGraph :=
  bindings.foldl (fun t (key, dependencies) => t.insert key dependencies) empty

/-- The keys, in increasing order. -/
def keys (t : TableGraph) : List String :=
  t.rows.map (·.1)

/-- The dependencies given for a key, and none for a name that is not a key. -/
def dependencies (t : TableGraph) (name : String) : List String :=
  (t.rows.lookup name).getD []

/-- The graph as queries see it: the dependents of a name are found by scanning all keys. -/
def view (t : TableGraph) : Graph where
  nodes := t.keys
  dependencies := t.dependencies
  dependents := Graph.scanDependents t.keys t.dependencies
  dependencies_eq_nil := fun name h => by
    have : t.rows.lookup name = none := by
      rw [List.lookup_eq_none_iff]
      intro row hrow
      have : name ≠ row.1 := fun e => h (e ▸ List.mem_map_of_mem hrow)
      simpa using this
    simp [dependencies, this]

end TableGraph

end BindingGraph
