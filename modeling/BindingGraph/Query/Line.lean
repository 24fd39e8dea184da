import BindingGraph.Query.Basic

/-!
# Query lines

A query line is the name of a kind followed by binding names, separated by blank characters. The
kind is looked at before the number of parameters.
-/

namespace BindingGraph.Query

/-- Why a line is not a query; one without any word is `empty`. -/
inductive LineError where
  | empty
  | invalid (error : QueryError)

/-- The error in words. -/
def LineError.message : LineError → String
  | .empty => "You did not specify the request and its parameters."
  | .invalid error => error.message

/-- The query of a kind's name and its parameters, already cut into words. -/
def ofWords (kind : String) (parameters : List String) : Except QueryError Query :=
  match QueryKind.ofName? kind with
  | some kind => ofParameters kind parameters
  | none => .error (.unknownKind kind)

/-- The query that a line expresses. -/
def ofLine (line : String) : Except LineError Query :=
  match Text.words line with
  | [] => .error .empty
  | kind :: parameters => (ofWords kind parameters).mapError .invalid

end BindingGraph.Query
