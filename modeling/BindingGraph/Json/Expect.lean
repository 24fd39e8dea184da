import BindingGraph.Json.Skip

/-!
# Reading what is expected

Readers for strings, natural numbers, optional values, lists, and structures. A structure may stand
as an object, whose unknown fields are passed over, or as a list of its fields in order.

A fault of a structure as a whole, such as a missing field, is placed after the end of the
structure, or as far towards it as the text is well formed.
-/

namespace BindingGraph.Json.Reader

/-- The value that comes next, for a message; of a list or an object nothing is read. -/
def found : Reader Found := do
  match ← peek? with
  | some 'n' => do skip; letters ['u', 'l', 'l']; return .null
  | some 't' => do skip; letters ['r', 'u', 'e']; return .bool true
  | some 'f' => do skip; letters ['a', 'l', 's', 'e']; return .bool false
  | some '-' => do skip; number false
  | some '"' => do skip; return .string (← literal)
  | some '[' => return .sequence
  | some '{' => return .map
  | some c => if isDigit c then number true else failNext .valueExpected
  | none => failNext .valueExpected

/-- Fail because the next value is of the wrong type. -/
def mismatch {α : Type} (expected : String) : Reader α := do
  failHere (.wrongType (← found) expected)

/-- The first character of a value. -/
def valueToken : Reader Char := do
  match ← peekToken? with
  | some c => return c
  | none => failNext .valueEnds

/-- A string. -/
def string (expected : String) : Reader String := do
  if (← valueToken) = '"' then
    skip
    literal
  else mismatch expected

/-- A natural number of sixty-four bits. -/
def natural (expected : String) : Reader Nat := do
  let c ← valueToken
  if c = '-' ∨ isDigit c then
    match ← found with
    | .natural value => return value
    | .negative magnitude => failHere (.wrongValue (.negative magnitude) expected)
    | other => failHere (.wrongType other expected)
  else mismatch expected

/-- The word for no value. -/
def null (expected : String) : Reader Unit := do
  if (← valueToken) = 'n' then
    skip
    letters ['u', 'l', 'l']
  else mismatch expected

/-- A value or `null`. -/
def optional {α : Type} (reader : Reader α) : Reader (Option α) := do
  match ← peekToken? with
  | some 'n' => do skip; letters ['u', 'l', 'l']; return none
  | _ => some <$> reader

/-! ## Lists -/

/-- Whether another item follows in a list, after its comma unless it is the first. -/
def hasItem (first : Bool) : Reader Bool := do
  match ← peekToken? with
  | some ']' => return false
  | some c =>
    if first then return true
    else if c = ',' then
      skip
      match ← peekToken? with
      | some ']' => failNext .trailingComma
      | some _ => return true
      | none => failNext .valueEnds
    else failNext .listEndExpected
  | none => failNext .listEnds

/-- The items that are left of a list, at most as many as given. -/
def items {α : Type} (item : Reader α) : Nat → Bool → Reader (List α)
  | 0, _ => failHere .listEnds
  | count + 1, first => do
    if ← hasItem first then
      let head ← item
      let tail ← items item count false
      return head :: tail
    else return []

/-- The end of a list. -/
def listEnd : Reader Unit := do
  match ← peekToken? with
  | some ']' => skip
  | some ',' => do
    skip
    match ← peekToken? with
    | some ']' => failNext .trailingComma
    | _ => failNext .trailingCharacters
  | some _ => failNext .trailingCharacters
  | none => failNext .listEnds

/-- A list of values of one kind. Every item takes a character, which bounds their number. -/
def list {α : Type} (item : Reader α) : Reader (List α) := do
  if (← valueToken) = '[' then
    skip
    let cursor ← get
    let found ← items item (cursor.rest.length + 1) true
    listEnd
    return found
  else mismatch "a sequence"

/-- Fail with a fault of a list as a whole. -/
def failAfterList {α : Type} (fault : Fault) : Reader α := do
  match ← peekToken? with
  | some ']' => skip
  | some ',' => do skip; skipSpace
  | _ => pure ()
  failHere fault

/-! ## Objects -/

/-- The next key of an object, after its comma unless it is the first. -/
def key? (first : Bool) : Reader (Option String) := do
  match ← peekToken? with
  | some '}' => return none
  | some c =>
    if first then
      if c = '"' then
        skip
        some <$> literal
      else failNext .keyNotString
    else if c = ',' then
      skip
      match ← peekToken? with
      | some '"' => do skip; some <$> literal
      | some '}' => failNext .trailingComma
      | some _ => failNext .keyNotString
      | none => failNext .valueEnds
    else failNext .objectEndExpected
  | none => failNext .objectEnds

/-- The end of an object. -/
def objectEnd : Reader Unit := do
  match ← peekToken? with
  | some '}' => skip
  | some ',' => failNext .trailingComma
  | some _ => failNext .trailingCharacters
  | none => failNext .objectEnds

/-- Fail with a fault of an object as a whole. -/
def failAfterObject {α : Type} (fault : Fault) : Reader α := do
  match ← peekToken? with
  | some '}' => skip
  | _ => pure ()
  failHere fault

/-! ## Structures -/

/-- A field of a structure that is read into a draft, which may have it already. -/
structure Field (Draft : Type) where
  name : String
  isSet : Draft → Bool
  read : Draft → Reader Draft

/-- The fields that are left of an object, at most as many as given. -/
def members {Draft : Type} (fields : List (Field Draft)) :
    Nat → Bool → Draft → Reader Draft
  | 0, _, _ => failHere .objectEnds
  | count + 1, first, draft => do
    match ← key? first with
    | none => return draft
    | some name =>
      match fields.find? (·.name == name) with
      | some field =>
        if field.isSet draft then failAfterObject (.duplicateField name)
        else
          colon
          let draft ← field.read draft
          members fields count false draft
      | none =>
        colon
        skipValue
        members fields count false draft

/-- The fields of a structure that stands as a list; those at the end may be left out. -/
def inOrder {Draft : Type} : List (Field Draft) → Bool → Draft → Reader Draft
  | [], _, draft => pure draft
  | field :: fields, first, draft => do
    if ← hasItem first then
      let draft ← field.read draft
      inOrder fields false draft
    else return draft

/-- A structure: its fields are read into a draft, from which it is made. -/
def fielded {Draft α : Type} (expected : String) (fields : List (Field Draft)) (draft : Draft)
    (ofObject ofList : Draft → Except Fault α) : Reader α := do
  let c ← valueToken
  if c = '{' then
    skip
    let cursor ← get
    let draft ← members fields (cursor.rest.length + 1) true draft
    match ofObject draft with
    | .ok value => do objectEnd; return value
    | .error fault => failAfterObject fault
  else if c = '[' then
    skip
    let draft ← inOrder fields true draft
    match ofList draft with
    | .ok value => do listEnd; return value
    | .error fault => failAfterList fault
  else mismatch expected

end BindingGraph.Json.Reader
