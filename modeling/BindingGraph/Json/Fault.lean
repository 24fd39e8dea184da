import BindingGraph.Decimal.Shortest
import BindingGraph.Text.Quoted

/-!
# What can be wrong with a JSON text

A reader either meets text that is not JSON or a value that is not what it expects. `Fault.message`
puts each case into words; a `Failure` adds how many bytes had been read, from which `position`
finds the line and the column.
-/

namespace BindingGraph.Json

/-- What stands where something else was expected; a negative integer goes by its magnitude. -/
inductive Found where
  | null
  | bool (value : Bool)
  | natural (value : Nat)
  | negative (magnitude : Nat)
  | float (value : Float)
  | string (value : String)
  | sequence
  | map

/-- The found value in words. -/
def Found.text : Found → String
  | .null => "null"
  | .bool value => s!"boolean `{value}`"
  | .natural value => s!"integer `{value}`"
  | .negative magnitude => s!"integer `-{magnitude}`"
  | .float value => "floating point `" ++ Decimal.text value ++ "`"
  | .string value => "string " ++ Text.quoted value
  | .sequence => "sequence"
  | .map => "map"

/-- What is wrong. -/
inductive Fault where
  | valueEnds
  | listEnds
  | objectEnds
  | stringEnds
  | colonExpected
  | listEndExpected
  | objectEndExpected
  | wordExpected
  | valueExpected
  | badEscape
  | badNumber
  | numberTooLarge
  | controlCharacter
  | keyNotString
  | loneSurrogate
  | hexEscapeEnds
  | trailingComma
  | trailingCharacters
  | wrongType (found : Found) (expected : String)
  | wrongValue (found : Found) (expected : String)
  | wrongLength (length : Nat) (expected : String)
  | missingField (name : String)
  | duplicateField (name : String)
  | unknownVariant (name : String) (expected : List String)

/-- The fault in words. -/
def Fault.message : Fault → String
  | .valueEnds => "EOF while parsing a value"
  | .listEnds => "EOF while parsing a list"
  | .objectEnds => "EOF while parsing an object"
  | .stringEnds => "EOF while parsing a string"
  | .colonExpected => "expected `:`"
  | .listEndExpected => "expected `,` or `]`"
  | .objectEndExpected => "expected `,` or `\x7d`"
  | .wordExpected => "expected ident"
  | .valueExpected => "expected value"
  | .badEscape => "invalid escape"
  | .badNumber => "invalid number"
  | .numberTooLarge => "number out of range"
  | .controlCharacter => "control character (\\u0000-\\u001F) found while parsing a string"
  | .keyNotString => "key must be a string"
  | .loneSurrogate => "lone leading surrogate in hex escape"
  | .hexEscapeEnds => "unexpected end of hex escape"
  | .trailingComma => "trailing comma"
  | .trailingCharacters => "trailing characters"
  | .wrongType found expected => "invalid type: " ++ found.text ++ ", expected " ++ expected
  | .wrongValue found expected => "invalid value: " ++ found.text ++ ", expected " ++ expected
  | .wrongLength length expected => s!"invalid length {length}, expected " ++ expected
  | .missingField name => s!"missing field `{name}`"
  | .duplicateField name => s!"duplicate field `{name}`"
  | .unknownVariant name expected =>
    s!"unknown variant `{name}`, expected one of " ++
      ", ".intercalate (expected.map fun variant => s!"`{variant}`")

/-- A fault and the number of bytes up to the place where it shows. -/
structure Failure where
  fault : Fault
  offset : Nat

/-- The line, counted from one, and the column in bytes at which `offset` bytes have been read. -/
def position (line column offset : Nat) : List Char → Nat × Nat
  | [] => (line, column + offset)
  | c :: rest =>
    if offset < c.utf8Size then (line, column + offset)
    else if c = '\n' then position (line + 1) 0 (offset - 1) rest
    else position line (column + c.utf8Size) (offset - c.utf8Size) rest

/-- The failure in words, with its place in the text. -/
def Failure.message (failure : Failure) (text : String) : String :=
  let (line, column) := position 1 0 failure.offset text.toList
  failure.fault.message ++ s!" at line {line} column {column}"

end BindingGraph.Json
