import BindingGraph.Json.Fault

/-!
# Reading JSON from left to right

A reader takes a cursor, which is the text that is left with the number of bytes before it, and
either fails or returns a value and a cursor further on. A fault is placed either after what has
been read (`failHere`) or after the next byte (`failNext`), which is the one that does not fit.
-/

namespace BindingGraph.Json

/-- The text that is left to read, and how many bytes have been. -/
structure Cursor where
  rest : List Char
  offset : Nat := 0

/-- A step of reading. -/
abbrev Reader := StateT Cursor (Except Failure)

namespace Reader

/-- Fail after what has been read. -/
def failHere {α : Type} (fault : Fault) : Reader α := fun cursor =>
  .error ⟨fault, cursor.offset⟩

/-- Fail after the next byte, or at the end of the text. -/
def failNext {α : Type} (fault : Fault) : Reader α := fun cursor =>
  .error ⟨fault, if cursor.rest.isEmpty then cursor.offset else cursor.offset + 1⟩

/-- The next character, which stays to be read. -/
def peek? : Reader (Option Char) := fun cursor => .ok (cursor.rest.head?, cursor)

/-- Pass over the next character. -/
def skip : Reader Unit := fun cursor =>
  match cursor.rest with
  | [] => .ok ((), cursor)
  | c :: rest => .ok ((), ⟨rest, cursor.offset + c.utf8Size⟩)

/-- The characters that may stand between tokens. -/
def isSpace (c : Char) : Bool :=
  c == ' ' || c == '\n' || c == '\t' || c == '\r'

/-- Pass over the characters between tokens; they take one byte each. -/
def skipSpace : Reader Unit := fun cursor =>
  let spaces := cursor.rest.takeWhile isSpace
  .ok ((), ⟨cursor.rest.dropWhile isSpace, cursor.offset + spaces.length⟩)

/-- The next character after space. -/
def peekToken? : Reader (Option Char) := do
  skipSpace
  peek?

/-- Read the given letters. -/
def letters : List Char → Reader Unit
  | [] => pure ()
  | letter :: others => do
    match ← peek? with
    | none => failHere .valueEnds
    | some c =>
      if c = letter then
        skip
        letters others
      else failNext .wordExpected

/-- The colon between a key and its value. -/
def colon : Reader Unit := do
  match ← peekToken? with
  | some ':' => skip
  | some _ => failNext .colonExpected
  | none => failNext .objectEnds

/-- Nothing but space is left. -/
def finish : Reader Unit := do
  match ← peekToken? with
  | some _ => failNext .trailingCharacters
  | none => pure ()

/-- Read a whole text. -/
def readAll {α : Type} (reader : Reader α) (text : String) : Except Failure α :=
  let whole : Reader α := do
    let value ← reader
    finish
    return value
  (whole.run { rest := text.toList }).map (·.1)

end Reader

end BindingGraph.Json
