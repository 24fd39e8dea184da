import BindingGraph.Deadline

/-!
# Engine settings

How far a misspelt name may be from the names offered in its place, how many of those to offer, and
how long a path search may take.
-/

namespace BindingGraph

/-- The settings that queries run with: the largest edit distance of a suggestion, the largest
number of suggestions, if it is bounded, and the time limit of a search, if there is one. -/
structure Settings where
  maxEditDistance : Nat := 3
  maxSuggestions : Option Nat := none
  timeoutMillis : Option Nat := none
  deriving DecidableEq

/-- The time limit of a search. -/
def Settings.timeout (settings : Settings) : Option Duration :=
  settings.timeoutMillis.map Duration.ofMillis

/-- The deadline of a search that starts now. -/
def Settings.deadline (settings : Settings) : Deadline :=
  Deadline.ofMillis? settings.timeoutMillis

end BindingGraph
