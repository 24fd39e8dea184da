import BindingGraph.Query.Error

/-!
# Deadlines

A search asks its deadline before every step and gives up as soon as the deadline says so. A request
to cancel counts before a limit that has run out. Whether a limit has run out is part of its value;
of a limit that starts now only zero has run out, and any other is taken to outlast the run.

For statements about searches that are stopped halfway, a search is driven by a `Watch`, which says
for each check in turn whether to give up; a deadline that does not change is the watch that always
answers the same.
-/

namespace BindingGraph

/-- The answers to successive checks: the reason to give up at the given check, if any. -/
abbrev Watch := Nat → Option AbortReason

/-- A time limit, and whether it has run out. -/
structure Limit where
  duration : Duration
  reached : Bool

/-- A limit that starts now: a limit of zero has run out at once. -/
def Limit.start (duration : Duration) : Limit :=
  ⟨duration, duration == ⟨0⟩⟩

/-- A bound on the time a search may take: a limit, if there is one, and whether cancellation has
been requested. -/
structure Deadline where
  limit : Option Limit := none
  cancelled : Bool := false

namespace Deadline

/-- The reason to give up, if there is one: cancellation counts before the limit. -/
def abortReason? (d : Deadline) : Option AbortReason :=
  if d.cancelled then some .cancelled
  else
    match d.limit with
    | some ⟨duration, true⟩ => some (.timedOut duration)
    | _ => none

/-- The watch of a deadline that stays as it is. -/
def watch (d : Deadline) : Watch := fun _ => d.abortReason?

/-- The deadline with a limit in milliseconds that starts now, or with none. -/
def ofMillis? (millis : Option Nat) : Deadline where
  limit := millis.map fun m => Limit.start (Duration.ofMillis m)

end Deadline

end BindingGraph
