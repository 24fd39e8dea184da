import BindingGraph.Decimal.Natural
import BindingGraph.Query.Error

/-!
# Values on the command line

Two arguments are checked as soon as they are read: the kind of a query, and a time limit, which is
a positive number of milliseconds. Blank characters around them do not matter.
-/

namespace BindingGraph.Console

/-- Why a value is refused; the text that is not a number of sixty-four bits is kept as it was
given. -/
inductive ValueError where
  | unknownKind (name : String)
  | notMillis (text : String)
  | zeroMillis
  deriving DecidableEq

/-- The error in words. -/
def ValueError.message : ValueError → String
  | .unknownKind name => (QueryError.unknownKind name).message
  | .notMillis text => s!"Invalid timeout '{text}': expected a whole number of milliseconds"
  | .zeroMillis => "Timeout must be greater than 0 milliseconds"

/-- The kind of query that a value names. -/
def readKind (text : String) : Except ValueError QueryKind :=
  match QueryKind.ofName? (Text.trim text) with
  | some kind => .ok kind
  | none => .error (.unknownKind (Text.trim text))

/-- The time limit that a value gives. -/
def readMillis (text : String) : Except ValueError Nat :=
  match Decimal.word? (Text.trim text) with
  | some 0 => .error .zeroMillis
  | some millis => .ok millis
  | none => .error (.notMillis text)

end BindingGraph.Console
