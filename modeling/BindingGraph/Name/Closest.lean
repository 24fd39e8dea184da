import BindingGraph.Name.Distance

/-!
# The names closest to a given one

When a name is not known, the candidates at the least edit distance from it are offered, provided
that distance is within a limit. One pass over the candidates keeps the best distance seen so far
and the candidates at that distance.
-/

namespace BindingGraph.Name

/-- The best distance so far and the candidates at that distance, latest first. -/
structure Nearest where
  best : Nat
  names : List String := []

/-- Take one more candidate into account: farther ones are dropped, a nearer one starts afresh. -/
def Nearest.consider (target : String) (near : Nearest) (candidate : String) : Nearest :=
  let d := distance target candidate
  if near.best < d then near
  else if d < near.best then ⟨d, [candidate]⟩
  else ⟨near.best, candidate :: near.names⟩

/-- The candidates at the least distance from `target` among those within `maxDistance`, in
candidate order and cut to `limit` if there is one. -/
def closest (target : String) (candidates : List String) (maxDistance : Nat)
    (limit : Option Nat) : List String :=
  let near := candidates.foldl (Nearest.consider target) ⟨maxDistance, []⟩
  let names := near.names.reverse
  match limit with
  | none => names
  | some n => names.take n

end BindingGraph.Name
