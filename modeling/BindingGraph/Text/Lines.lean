import BindingGraph.Text.Utf8

/-!
# Lines

Bytes are cut behind each line feed; what stands behind the last one is a line too, unless it is
empty. Each line first loses its line feed and a carriage return before it and is then decoded by
itself, so a character that its end cuts off is incomplete.
-/

namespace BindingGraph.Text

/-- Cut behind each line feed. The line under construction is kept in reverse. -/
def cutLines (line : List UInt8) : List UInt8 → List (List UInt8)
  | [] => if line.isEmpty then [] else [line.reverse]
  | b :: bs => if b = 10 then (b :: line).reverse :: cutLines [] bs else cutLines (b :: line) bs

/-- Drop a line feed at the end, and a carriage return before it. -/
def dropLineEnd {α : Type} [DecidableEq α] (lineFeed carriageReturn : α) (line : List α) : List α :=
  match line.reverse with
  | [] => line
  | last :: front =>
    if last ≠ lineFeed then line
    else if front.head? = some carriageReturn then front.tail.reverse
    else front.reverse

/-- The first line of a text. -/
def firstLine (text : String) : String :=
  match text.toList.span (· != '\n') with
  | (_, []) => text
  | (line, _ :: _) => String.ofList (dropLineEnd '\n' '\r' (line ++ ['\n']))

/-- The text of one line. -/
def decodeLine (line : List UInt8) : Except Utf8Fault String :=
  decodeUtf8 (dropLineEnd 10 13 line)

/-- The lines of bytes, each as far as it can be decoded. -/
def decodeLines (bytes : List UInt8) : List (Except Utf8Fault String) :=
  (cutLines [] bytes).map decodeLine

/-- The lines of bytes, all of which have to be text. -/
def linesOfBytes (bytes : List UInt8) : Except Utf8Fault (List String) :=
  (cutLines [] bytes).mapM decodeLine

end BindingGraph.Text
