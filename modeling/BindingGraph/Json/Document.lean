/-!
# JSON documents and their text

The documents that are written: null, natural numbers, strings, arrays and objects, the fields of an
object in the order in which they are given. `compact` writes a document without any space, `pretty`
one item or field to a line, indented by two spaces for each level.
-/

namespace BindingGraph.Json

/-- A JSON document. -/
inductive Document where
  | null
  | number (value : Nat)
  | string (value : String)
  | array (items : List Document)
  | object (fields : List (String × Document))

/-- The sixteen digits of base sixteen, in lower case. -/
def hexDigit (n : Nat) : Char :=
  "0123456789abcdef".toList.getD n '0'

/-- A character as it stands in a string literal: quote, backslash and control characters are
escaped, by their short escapes where there is one. -/
def escapeChar (c : Char) : List Char :=
  if c = '"' then ['\\', '"']
  else if c = '\\' then ['\\', '\\']
  else if c = '\x08' then ['\\', 'b']
  else if c = '\x0c' then ['\\', 'f']
  else if c = '\n' then ['\\', 'n']
  else if c = '\r' then ['\\', 'r']
  else if c = '\t' then ['\\', 't']
  else if c.toNat < 0x20 then
    ['\\', 'u', '0', '0', hexDigit (c.toNat / 16), hexDigit (c.toNat % 16)]
  else [c]

/-- The string literal of a text. -/
def quote (text : String) : String :=
  String.ofList ('"' :: text.toList.flatMap escapeChar ++ ['"'])

namespace Document

/-- The document of a list of strings. -/
def strings (items : List String) : Document :=
  .array (items.map .string)

/-! ## Without space -/

mutual

/-- The document without any space. -/
def compact : Document → String
  | .null => "null"
  | .number value => toString value
  | .string value => quote value
  | .array items => "[" ++ ",".intercalate (compactItems items) ++ "]"
  | .object fields => "\x7b" ++ ",".intercalate (compactFields fields) ++ "\x7d"

/-- The items of an array, each without any space. -/
def compactItems : List Document → List String
  | [] => []
  | item :: items => compact item :: compactItems items

/-- The fields of an object, each without any space. -/
def compactFields : List (String × Document) → List String
  | [] => []
  | (key, value) :: fields => (quote key ++ ":" ++ compact value) :: compactFields fields

end

/-! ## One entry to a line -/

/-- A new line indented to a level. -/
def newLine (level : Nat) : String :=
  String.ofList ('\n' :: List.replicate (2 * level) ' ')

/-- Entries between brackets, one to a line, indented below `level`. -/
def bracket (level : Nat) (opening closing : String) (entries : List String) : String :=
  match entries with
  | [] => opening ++ closing
  | entries =>
    opening ++ newLine (level + 1) ++ ("," ++ newLine (level + 1)).intercalate entries ++
      newLine level ++ closing

mutual

/-- The document as it stands at an indentation level. -/
def prettyAt (level : Nat) : Document → String
  | .null => "null"
  | .number value => toString value
  | .string value => quote value
  | .array items => bracket level "[" "]" (prettyItems (level + 1) items)
  | .object fields => bracket level "\x7b" "\x7d" (prettyFields (level + 1) fields)

/-- The items of an array at an indentation level. -/
def prettyItems (level : Nat) : List Document → List String
  | [] => []
  | item :: items => prettyAt level item :: prettyItems level items

/-- The fields of an object at an indentation level. -/
def prettyFields (level : Nat) : List (String × Document) → List String
  | [] => []
  | (key, value) :: fields =>
    (quote key ++ ": " ++ prettyAt level value) :: prettyFields level fields

end

/-- The document with one entry to a line. -/
def pretty (document : Document) : String := document.prettyAt 0

end Document

end BindingGraph.Json
