/-!
# Positions in a YAML text

Three characters end a line once the different line ends have been made one (`unifyBreaks`). A
cursor holds the text that is left and the place where it starts; columns and lines are counted
from zero.
-/

namespace BindingGraph.Yaml

/-! ## Characters -/

/-- The byte order mark. -/
def byteOrderMark : Char := '\uFEFF'

/-- Whether a character may stand in a YAML text at all. -/
def isAllowed (c : Char) : Bool :=
  let n := c.toNat
  n == 0x09 || n == 0x0A || n == 0x0D || (0x20 ≤ n && n ≤ 0x7E) || n == 0x85 ||
    (0xA0 ≤ n && n ≤ 0xFFFD) || 0x10000 ≤ n

/-- Write each carriage return, with the line feed behind it if there is one, and each next-line
character as a line feed. -/
def unifyBreaks : List Char → List Char
  | '\r' :: '\n' :: cs => '\n' :: unifyBreaks cs
  | c :: cs => (if c = '\r' ∨ c = '\x85' then '\n' else c) :: unifyBreaks cs
  | [] => []

/-- Whether a character ends a line. -/
def isBreak (c : Char) : Bool := c == '\n' || c == '\u2028' || c == '\u2029'

/-- Whether a character is a space or a tab. -/
def isPad (c : Char) : Bool := c == ' ' || c == '\t'

/-- Whether nothing is left on the line. -/
def endsLine : List Char → Bool
  | [] => true
  | c :: _ => isBreak c

/-- Whether what is left starts with space or the end of the line. -/
def endsWord : List Char → Bool
  | [] => true
  | c :: _ => isPad c || isBreak c

/-- Whether what is left starts with the mark that starts a document. -/
def startsDocument : List Char → Bool
  | '-' :: '-' :: '-' :: cs => endsWord cs
  | _ => false

/-- Whether what is left starts with the mark that ends a document. -/
def endsDocument : List Char → Bool
  | '.' :: '.' :: '.' :: cs => endsWord cs
  | _ => false

/-- Letters and digits of names. -/
def isNameChar (c : Char) : Bool := c.isAlphanum || c == '_' || c == '-'

/-! ## Places -/

/-- The place of a character in a text: how many bytes stand before it once the different line ends
have been made one, how many lines before its own, and how many characters before it on its line. -/
structure Place where
  index : Nat := 0
  line : Nat := 0
  column : Nat := 0

/-- The place behind a character. -/
def Place.next (place : Place) (c : Char) : Place :=
  if isBreak c then ⟨place.index + c.utf8Size, place.line + 1, 0⟩
  else ⟨place.index + c.utf8Size, place.line, place.column + 1⟩

/-- The place behind several characters. -/
def Place.after (place : Place) (cs : List Char) : Place := cs.foldl Place.next place

/-- The text that is left, with the place where it starts. -/
structure Cursor where
  rest : List Char
  place : Place := {}

namespace Cursor

/-- Pass over a number of characters. -/
def skip (cursor : Cursor) (n : Nat) : Cursor :=
  ⟨cursor.rest.drop n, cursor.place.after (cursor.rest.take n)⟩

/-- The characters up to the first that does not qualify, and the cursor there. -/
def span (cursor : Cursor) (p : Char → Bool) : List Char × Cursor :=
  let front := cursor.rest.takeWhile p
  (front, cursor.skip front.length)

/-- Pass over the characters up to the first that does not qualify. -/
def skipWhile (cursor : Cursor) (p : Char → Bool) : Cursor := (cursor.span p).2

/-- Pass over space and a comment up to the end of the line. -/
def skipComment (cursor : Cursor) : Cursor :=
  let cursor := cursor.skipWhile isPad
  match cursor.rest with
  | '#' :: _ => cursor.skipWhile (!isBreak ·)
  | _ => cursor

end Cursor

end BindingGraph.Yaml
