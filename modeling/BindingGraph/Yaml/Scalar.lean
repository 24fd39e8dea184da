import BindingGraph.Decimal.Natural
import BindingGraph.Yaml.Cursor
import BindingGraph.Yaml.Fault

/-!
# Scalars in a YAML text

A scalar is written plain, between single or double quotes, or as a block of indented lines. Each
reader takes the characters behind the opening indicator, of a plain scalar all its characters, and
returns the text with the cursor behind the scalar. Where a plain or quoted scalar goes on over
several lines, its line breaks are folded: a single one stands for a space, and of several the first
is dropped.
-/

namespace BindingGraph.Yaml

/-! ## Gaps -/

/-- Space inside a scalar: blank characters up to the first line break, and the line breaks. -/
structure Gap where
  pads : List Char := []
  breaks : List Char := []
  deriving DecidableEq

namespace Gap

/-- Add a blank character: it counts only before the first line break. -/
def pad (gap : Gap) (c : Char) : Gap :=
  if gap.breaks.isEmpty then { gap with pads := gap.pads ++ [c] } else gap

/-- Add a line break. -/
def addBreak (gap : Gap) (c : Char) : Gap := { gap with breaks := gap.breaks ++ [c] }

/-- What a gap stands for between two words: line breaks are folded. -/
def text (gap : Gap) : List Char :=
  match gap.breaks with
  | [] => gap.pads
  | ['\n'] => [' ']
  | '\n' :: more => more
  | breaks => breaks

end Gap

/-! ## Plain scalars -/

/-- A plain scalar that has been read. Where a line break follows it, a key may start behind it. -/
structure PlainScalar where
  text : List Char
  broken : Bool
  cursor : Cursor

/-- Characters that end a plain scalar between brackets. -/
def isFlowEnd (c : Char) : Bool :=
  c == ',' || c == '[' || c == ']' || c == '{' || c == '}'

/-- Read a plain scalar; `indent` is the least column of its further lines outside brackets. -/
def plainFrom (inFlow : Bool) (indent : Nat) (gap : Gap) (place : Place) :
    List Char → Except Fault PlainScalar
  | [] => .ok ⟨[], !gap.breaks.isEmpty, ⟨[], place⟩⟩
  | c :: rest =>
    let stop : Except Fault PlainScalar := .ok ⟨[], !gap.breaks.isEmpty, ⟨c :: rest, place⟩⟩
    if isPad c then
      if c = '\t' ∧ gap.breaks ≠ [] ∧ place.column < indent then .error .tabInIndentation
      else plainFrom inFlow indent (gap.pad c) (place.next c) rest
    else if isBreak c then plainFrom inFlow indent (gap.addBreak c) (place.next c) rest
    -- Behind a gap a comment, a smaller column or a mark between documents ends the scalar.
    else if gap ≠ {} ∧ (c = '#' ∨ !inFlow ∧ place.column < indent ∨
        place.column = 0 ∧ (startsDocument (c :: rest) ∨ endsDocument (c :: rest))) then stop
    else if c = ':' ∧ endsWord rest then stop
    else if inFlow ∧ isFlowEnd c then stop
    else if inFlow ∧ c = ':' ∧ rest.head?.any (fun d => isFlowEnd d || d == '?') then
      .error .colonInFlow
    else do
      let tail ← plainFrom inFlow indent {} (place.next c) rest
      return { tail with text := gap.text ++ c :: tail.text }

/-! ## Quoted scalars -/

/-- Where in a quoted scalar a character stands. At a `joint`, behind an escaped line break, blank
characters and the break itself are dropped; a `quote` stands between the two quotes that stand for
one; a `number` stands among the digits of a character's number, of which `more` follow the next. -/
inductive QuoteState where
  | word
  | gap (space : Gap)
  | joint (breaks : List Char)
  | quote
  | escape
  | number (more value : Nat)

/-- What has to be put before the next word. -/
def QuoteState.lead : QuoteState → List Char
  | .gap space => space.text
  | .joint breaks => breaks
  | _ => []

/-- The character that a letter behind a backslash stands for. -/
def escaped? (c : Char) : Option Char :=
  match c with
  | '0' => some '\x00'
  | 'a' => some '\x07'
  | 'b' => some '\x08'
  | 't' | '\t' => some '\t'
  | 'n' => some '\n'
  | 'v' => some '\x0b'
  | 'f' => some '\x0c'
  | 'r' => some '\r'
  | 'e' => some '\x1b'
  | ' ' => some ' '
  | '"' => some '"'
  | '/' => some '/'
  | '\\' => some '\\'
  | 'N' => some '\x85'
  | '_' => some '\xa0'
  | 'L' => some '\u2028'
  | 'P' => some '\u2029'
  | _ => none

/-- How many digits follow a letter behind a backslash that announces a character's number. -/
def escapedDigits? (c : Char) : Option Nat :=
  match c with
  | 'x' => some 2
  | 'u' => some 4
  | 'U' => some 8
  | _ => none

/-- The character with a number, if there is one. -/
def charOfNumber? (n : Nat) : Option Char :=
  if h : n.isValidChar then some (Char.ofNatAux n h) else none

/-- Read a quoted scalar up to its closing quote. -/
def quotedFrom (single : Bool) (state : QuoteState) (place : Place) :
    List Char → Except Fault (List Char × Cursor)
  | [] => .error .openQuotes
  | c :: rest =>
    let put (front : List Char) (more : Except Fault (List Char × Cursor)) :
        Except Fault (List Char × Cursor) := more.map fun (text, cursor) => (front ++ text, cursor)
    match state with
    | .quote => put [c] (quotedFrom single .word (place.next c) rest)
    | .escape =>
      if isBreak c then quotedFrom single (.joint []) (place.next c) rest
      else
        match escaped? c, escapedDigits? c with
        | some d, _ => put [d] (quotedFrom single .word (place.next c) rest)
        | none, some digits => quotedFrom single (.number (digits - 1) 0) (place.next c) rest
        | none, none => .error .badEscape
    | .number more value =>
      match Decimal.digitIn? 16 c with
      | none => .error .badEscape
      | some digit =>
        let value := 16 * value + digit
        match more with
        | more + 1 => quotedFrom single (.number more value) (place.next c) rest
        | 0 =>
          match charOfNumber? value with
          | some d => put [d] (quotedFrom single .word (place.next c) rest)
          | none => .error .badEscape
    | state =>
      if isPad c then
        let state := match state with
          | .gap space => .gap (space.pad c)
          | .joint breaks => .joint breaks
          | _ => .gap { pads := [c] }
        quotedFrom single state (place.next c) rest
      else if isBreak c then
        let state := match state with
          | .gap space => .gap (space.addBreak c)
          | .joint breaks => .joint (breaks ++ [c])
          | _ => .gap { breaks := [c] }
        quotedFrom single state (place.next c) rest
      else if place.column = 0 ∧ (startsDocument (c :: rest) ∨ endsDocument (c :: rest)) then
        .error .documentMarkInQuotes
      else
        -- A word goes on or starts here: what the gap before it stands for comes first.
        put state.lead <|
          if single then
            if c = '\'' then
              -- Between single quotes a quote is written twice.
              if rest.head? = some '\'' then quotedFrom single .quote (place.next c) rest
              else .ok ([], ⟨rest, place.next c⟩)
            else put [c] (quotedFrom single .word (place.next c) rest)
          else if c = '"' then .ok ([], ⟨rest, place.next c⟩)
          else if c = '\\' then quotedFrom single .escape (place.next c) rest
          else put [c] (quotedFrom single .word (place.next c) rest)

/-! ## Block scalars -/

/-- What becomes of the line breaks at the end of a block: all are dropped, the first is kept, or
all are kept. -/
inductive Chomp where
  | strip
  | clip
  | keep

/-- The sign for a way to end a block. -/
def Chomp.ofChar? (c : Char) : Option Chomp :=
  if c = '-' then some .strip else if c = '+' then some .keep else none

/-- What the header of a block says; without an indentation it is for the first line to show. -/
structure BlockHeader where
  chomp : Chomp := .clip
  indentation : Option Nat := none

/-- Read the signs of a header, in either order. -/
def BlockHeader.read (cursor : Cursor) : Except Fault (BlockHeader × Cursor) :=
  let sign (header : BlockHeader) (cursor : Cursor) : BlockHeader × Cursor :=
    match cursor.rest.head? >>= Chomp.ofChar? with
    | some chomp => ({ header with chomp }, cursor.skip 1)
    | none => (header, cursor)
  let digit (header : BlockHeader) (cursor : Cursor) : Except Fault (BlockHeader × Cursor) :=
    match cursor.rest.head? >>= Decimal.digitIn? 10 with
    | some 0 => .error .badBlockHeader
    | some n => .ok ({ header with indentation := some n }, cursor.skip 1)
    | none => .ok (header, cursor)
  match cursor.rest.head? >>= Chomp.ofChar? with
  | some chomp => digit { chomp } (cursor.skip 1)
  | none => (digit {} cursor).map fun (header, cursor) =>
    if header.indentation.isSome then sign header cursor else (header, cursor)

/-- The indentation of a block as its leading lines show it, but no less than `least`: the blank
lines count as far as they go. -/
def shownIndent (least : Nat) (column widest : Nat) : List Char → Except Fault Nat
  | ' ' :: cs => shownIndent least (column + 1) widest cs
  | '\t' :: _ => .error .tabInIndentation
  | c :: cs =>
    if isBreak c then shownIndent least 0 (max widest column) cs
    else .ok (max least (max widest column))
  | [] => .ok (max least (max widest column))

/-- The state of reading a block: inside a line or in front of one, the break that ended the last
line, if it is not in the text yet, the breaks of the empty lines since, and whether the last line
started with a blank character. -/
structure BlockState where
  inLine : Bool := false
  ending : Option Char := none
  empty : List Char := []
  padded : Bool := false

/-- What has to be put before a line that starts with `c`: between two lines that do not start with
space a folded break becomes a space, or nothing if empty lines follow it. -/
def BlockState.lead (state : BlockState) (literal : Bool) (c : Char) : List Char :=
  if !literal && state.ending == some '\n' && !state.padded && !isPad c then
    if state.empty.isEmpty then [' '] else state.empty
  else state.ending.toList ++ state.empty

/-- Read the lines of a block that is indented to the column `indent`: the text, the state at its
end and the cursor behind it. -/
def blockFrom (literal : Bool) (indent : Nat) (state : BlockState) (place : Place) :
    List Char → Except Fault (List Char × BlockState × Cursor)
  | [] => .ok ([], state, ⟨[], place⟩)
  | c :: rest =>
    let put (front : List Char) (more : Except Fault (List Char × BlockState × Cursor)) :
        Except Fault (List Char × BlockState × Cursor) :=
      more.map fun (text, last) => (front ++ text, last)
    if state.inLine then
      if isBreak c then
        blockFrom literal indent { state with inLine := false, ending := some c, empty := [] }
          (place.next c) rest
      else put [c] (blockFrom literal indent state (place.next c) rest)
    else if c = ' ' ∧ place.column < indent then
      blockFrom literal indent state (place.next c) rest
    else if c = '\t' ∧ place.column < indent then .error .tabInIndentation
    else if isBreak c then
      blockFrom literal indent { state with empty := state.empty ++ [c] } (place.next c) rest
    -- The first character of a line at the block's own column; further in it would be in the line.
    else if place.column = indent then
      put (state.lead literal c ++ [c]) <|
        blockFrom literal indent { inLine := true, padded := isPad c } (place.next c) rest
    else .ok ([], state, ⟨c :: rest, place⟩)

/-- Read a block scalar behind its indicator, inside a block whose entries stand at the column
`parent`, if there is one. -/
def blockScalar (literal : Bool) (parent : Option Nat) (cursor : Cursor) :
    Except Fault (List Char × Cursor) := do
  let (header, cursor) ← BlockHeader.read cursor
  let cursor := cursor.skipComment
  unless endsLine cursor.rest do throw .badBlockHeader
  let cursor := cursor.skip 1
  let indent ← match header.indentation with
    | some n => pure (parent.getD 0 + n)
    | none => shownIndent (parent.elim 1 (· + 1)) 0 0 cursor.rest
  let (text, state, cursor) ← blockFrom literal indent {} cursor.place cursor.rest
  let tail := match header.chomp with
    | .strip => []
    | .clip => state.ending.toList
    | .keep => state.ending.toList ++ state.empty
  return (text ++ tail, cursor)

end BindingGraph.Yaml
