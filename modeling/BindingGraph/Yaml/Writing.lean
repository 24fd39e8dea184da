import BindingGraph.Yaml.Cursor
import BindingGraph.Yaml.Numeral

/-!
# Writing a text as a YAML scalar

A text is written plain if it then reads as the same text and nothing else. A text with line feeds
becomes a block of lines, other texts that cannot stand plain go between single quotes. What neither
can hold goes between double quotes, with escapes. The further lines of a scalar are indented by two
spaces.
-/

namespace BindingGraph.Yaml

/-! ## What a text is like -/

/-- Whether a character may stand unescaped. -/
def isWritable (c : Char) : Bool :=
  let n := c.toNat
  n == 0x0A || (0x20 ≤ n && n ≤ 0x7E) || (0xA0 ≤ n && n ≤ 0xFFFD && c != byteOrderMark) ||
    0x10000 ≤ n

/-- Whether somewhere a character of one sort is directly followed by one of another. -/
def hasPair (p q : Char → Bool) : List Char → Bool
  | a :: b :: cs => (p a && q b) || hasPair p q (b :: cs)
  | _ => false

/-- Whether a character is a space. -/
def isSpace (c : Char) : Bool := c == ' '

/-- Whether a character inside a plain scalar, with `before` in front of it and `after` behind it,
would end the scalar. -/
def endsPlain (before c : Char) (after : List Char) : Bool :=
  (c == ':' && endsWord after) || (c == '#' && (isPad before || isBreak before))

/-- Whether some character behind the first would end a plain scalar. -/
def hasInnerIndicator : List Char → Bool
  | a :: b :: cs => endsPlain a b cs || hasInnerIndicator (b :: cs)
  | _ => false

/-- Whether a text has a character that means something else at its place in a plain scalar. -/
def hasIndicator (cs : List Char) : Bool :=
  ['-', '-', '-'].isPrefixOf cs || ['.', '.', '.'].isPrefixOf cs || hasInnerIndicator cs ||
    match cs with
    | [] => false
    | c :: rest => "#,[]\x7b\x7d&*!|>'\"%@`".contains c || ("?:-".contains c && endsWord rest)

/-- How a scalar is written. -/
inductive WritingStyle where
  | plain
  | single
  | double
  | literal
  deriving DecidableEq

/-- Whether a text can be written plain. -/
def canBePlain (cs : List Char) : Bool :=
  cs.all isWritable && !cs.any isBreak && !cs.head?.any isSpace && !cs.getLast?.any isSpace &&
    !hasIndicator cs

/-- Whether a text can be written between single quotes. -/
def canBeSingle (cs : List Char) : Bool :=
  cs.all isWritable && !hasPair isBreak isSpace cs && !hasPair isSpace isBreak cs

/-- Whether a text can be written as a block of lines. -/
def canBeLiteral (cs : List Char) : Bool :=
  cs.all isWritable && !cs.getLast?.any isSpace && !hasPair isSpace isBreak cs

/-- How a text is written. -/
def WritingStyle.ofText (cs : List Char) : WritingStyle :=
  if cs.contains '\n' then if canBeLiteral cs then .literal else .double
  else if canBePlain cs && !hasOtherReading cs then .plain
  else if canBeSingle cs then .single
  else .double

/-! ## The four ways of writing -/

/-- The indentation of further lines. -/
def indentation : List Char := [' ', ' ']

/-- The text between single quotes: a quote is written twice, and what follows line breaks is
indented. A first line feed is written twice, since reading folds it. -/
def singleBody (afterBreak : Bool) : List Char → List Char
  | [] => if afterBreak then indentation else []
  | c :: cs =>
    if isBreak c then
      (if c == '\n' && !afterBreak then ['\n', c] else [c]) ++ singleBody true cs
    else
      (if afterBreak then indentation else []) ++ (if c = '\'' then ['\'', c] else [c]) ++
        singleBody false cs

/-- The letter that stands for a character behind a backslash. -/
def shortEscape? (c : Char) : Option Char :=
  match c with
  | '\x00' => some '0'
  | '\x07' => some 'a'
  | '\x08' => some 'b'
  | '\t' => some 't'
  | '\n' => some 'n'
  | '\x0b' => some 'v'
  | '\x0c' => some 'f'
  | '\r' => some 'r'
  | '\x1b' => some 'e'
  | '"' => some '"'
  | '\\' => some '\\'
  | '\x85' => some 'N'
  | '\u2028' => some 'L'
  | '\u2029' => some 'P'
  | _ => none

/-- The last `count` digits of a number in base sixteen, in upper case. -/
def upperHex (n : Nat) : Nat → List Char
  | 0 => []
  | count + 1 => upperHex (n / 16) count ++ ["0123456789ABCDEF".toList.getD (n % 16) '0']

/-- A character as it stands between double quotes. -/
def doubleChar (c : Char) : List Char :=
  if isWritable c && !isBreak c && c != '"' && c != '\\' then [c]
  else
    match shortEscape? c with
    | some letter => ['\\', letter]
    | none =>
      let n := c.toNat
      if n ≤ 0xFF then '\\' :: 'x' :: upperHex n 2
      else if n ≤ 0xFFFF then '\\' :: 'u' :: upperHex n 4
      else '\\' :: 'U' :: upperHex n 8

/-- The lines of a block: what follows line breaks is indented. -/
def literalBody (afterBreak : Bool) : List Char → List Char
  | [] => []
  | c :: cs =>
    if isBreak c then c :: literalBody true cs
    else (if afterBreak then indentation else []) ++ c :: literalBody false cs

/-- The signs in the header of a block. A first line that starts with space does not show the
indentation; a text without final line break, or with more than one, needs a sign for that. -/
def literalHeader (cs : List Char) : List Char :=
  (if cs.head?.any (fun c => isSpace c || isBreak c) then ['2'] else []) ++
    match cs.reverse with
    | [] => ['-']
    | [c] => if isBreak c then ['+'] else ['-']
    | c :: d :: _ => if isBreak c then if isBreak d then ['+'] else [] else ['-']

/-- The text as a scalar, with the end of its line. -/
def scalarLine (text : String) : String :=
  let cs := text.toList
  match WritingStyle.ofText cs with
  | .plain => text ++ "\n"
  | .single => String.ofList (['\''] ++ singleBody false cs ++ ['\'', '\n'])
  | .double => String.ofList (['"'] ++ cs.flatMap doubleChar ++ ['"', '\n'])
  | .literal =>
    String.ofList (['|'] ++ literalHeader cs ++ ['\n'] ++ literalBody true cs ++
      if cs.getLast?.any isBreak then [] else ['\n'])

end BindingGraph.Yaml
