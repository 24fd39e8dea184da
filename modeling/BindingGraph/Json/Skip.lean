import BindingGraph.Json.Literal
import BindingGraph.Json.Numeral

/-!
# Values that are passed over

A field that nobody asks for may hold any value. It has to be well formed, but numbers may be of any
size and brackets may nest to any depth, since only the open brackets are remembered.
-/

namespace BindingGraph.Json

/-- An open bracket. -/
inductive Bracket where
  | list
  | object
  deriving DecidableEq

namespace Bracket

/-- The character that closes a bracket. -/
def closing : Bracket → Char
  | .list => ']'
  | .object => '}'

/-- The fault of a text that ends inside a bracket. -/
def ends : Bracket → Fault
  | .list => .listEnds
  | .object => .objectEnds

/-- The fault of an entry that neither a comma nor the closing bracket follows. -/
def endExpected : Bracket → Fault
  | .list => .listEndExpected
  | .object => .objectEndExpected

end Bracket

namespace Reader

/-- Inside a bracket, pass over what comes before the next value: nothing in a list, a key and a
colon in an object. -/
def beforeValue : Bracket → Reader Unit
  | .list => pure ()
  | .object => do
    match ← peekToken? with
    | some '"' =>
      skip
      skipLiteral
      colon
    | some _ => failNext .keyNotString
    | none => failNext .objectEnds

/-- After a value, close the brackets that close here, up to the next value. What is returned are
the brackets that this value stands in; none means that the outermost value has ended. -/
def afterValue : List Bracket → Reader (List Bracket)
  | [] => pure []
  | bracket :: outer => do
    match ← peekToken? with
    | some c =>
      if c = ',' then
        skip
        beforeValue bracket
        return bracket :: outer
      else if c = bracket.closing then
        skip
        afterValue outer
      else failNext bracket.endExpected
    | none => failNext bracket.ends

/-- After an opening bracket, up to the next value. -/
def afterOpening (bracket : Bracket) (outer : List Bracket) : Reader (List Bracket) := do
  match ← peekToken? with
  | some c =>
    if c = bracket.closing then
      skip
      afterValue outer
    else
      beforeValue bracket
      return bracket :: outer
  | none => failNext bracket.ends

/-- Pass over the beginning of a value, up to the value after it. -/
def skipStep (brackets : List Bracket) : Reader (List Bracket) := do
  match ← peekToken? with
  | none => failNext .valueEnds
  | some 'n' => do skip; letters ['u', 'l', 'l']; afterValue brackets
  | some 't' => do skip; letters ['r', 'u', 'e']; afterValue brackets
  | some 'f' => do skip; letters ['a', 'l', 's', 'e']; afterValue brackets
  | some '"' => do skip; skipLiteral; afterValue brackets
  | some '[' => do skip; afterOpening .list brackets
  | some '{' => do skip; afterOpening .object brackets
  | some '-' => do skip; skipNumber; afterValue brackets
  | some c =>
    if isDigit c then do
      skipNumber
      afterValue brackets
    else failNext .valueExpected

/-- Pass over values until the outermost has ended. Every step reads a character, so a step for each
character that is left is enough. -/
def skipSteps : Nat → List Bracket → Reader Unit
  | 0, _ => failHere .valueEnds
  | steps + 1, brackets => do
    let brackets ← skipStep brackets
    if brackets.isEmpty then pure () else skipSteps steps brackets

/-- Pass over a value. -/
def skipValue : Reader Unit := fun cursor =>
  skipSteps (cursor.rest.length + 1) [] cursor

end Reader

end BindingGraph.Json
