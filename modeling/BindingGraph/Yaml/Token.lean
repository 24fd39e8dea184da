import BindingGraph.Yaml.Scalar

/-!
# The tokens of a YAML text

Tokens are cut off from left to right. Outside brackets the columns of the open blocks are kept: a
token in a smaller column closes blocks, and a key, a value or an entry in a larger one opens one. A
scalar, an alias or a bracket may turn out to be a key, which only the colon behind it tells; the
place where it started is kept as a *candidate* until then, and the tokens that open the mapping and
mark the key are put in there.
-/

namespace BindingGraph.Yaml

/-- How a scalar was written, as far as its meaning depends on it. -/
inductive ScalarStyle where
  | plain
  | literal
  | other
  deriving DecidableEq

/-- The tokens of a text. -/
inductive Token where
  | version (major minor : Nat)
  | tagHandle (handle expansion : String)
  | documentStart
  | documentEnd
  | sequenceStart
  | mappingStart
  | blockEnd
  | flowSequenceStart
  | flowSequenceEnd
  | flowMappingStart
  | flowMappingEnd
  | entry
  | flowEntry
  | key
  | value
  | alias (name : String)
  | anchor (name : String)
  | tag (handle suffix : String)
  | scalar (text : String) (style : ScalarStyle)
  deriving DecidableEq

/-! ## Names, tags and directives -/

/-- Characters that may stand directly behind the name of an anchor or an alias. -/
def endsName : List Char → Bool
  | [] => true
  | c :: cs => endsWord (c :: cs) || "?:,]\x7d%@`".contains c

/-- The name behind the sign of an anchor or an alias. -/
def scanName (cursor : Cursor) : Except Fault (String × Cursor) :=
  let (name, cursor) := cursor.span isNameChar
  if name.isEmpty || !endsName cursor.rest then .error .badName
  else .ok (String.ofList name, cursor)

/-- Characters that may stand in a tag; between angle brackets a few more. -/
def isTagChar (verbatim : Bool) (c : Char) : Bool :=
  isNameChar c || ";/?:@&=+$.!~*'()".contains c || (verbatim && ",[]".contains c)

/-- How many octets follow the first octet of a character. -/
def octetsBehind? (octet : Nat) : Option Nat :=
  if octet < 0x80 then some 0
  else if 0xC0 ≤ octet ∧ octet < 0xE0 then some 1
  else if 0xE0 ≤ octet ∧ octet < 0xF0 then some 2
  else if 0xF0 ≤ octet ∧ octet < 0xF8 then some 3
  else none

/-- The octets of a tag, each as the character with its number: those of its characters, which are
ASCII, and those written in base sixteen, of which `more` are missing in the current character. What
is left comes second. -/
def tagOctetsFrom (verbatim : Bool) (more : Nat) :
    List Char → Except Fault (List Char × List Char)
  | '%' :: a :: b :: cs =>
    match Decimal.digitIn? 16 a, Decimal.digitIn? 16 b with
    | some high, some low =>
      let octet := 16 * high + low
      let more? := match more with
        | 0 => octetsBehind? octet
        | more + 1 => if octet / 64 = 2 then some more else none
      match more? with
      | some more =>
        (tagOctetsFrom verbatim more cs).map fun (text, rest) => (Char.ofNat octet :: text, rest)
      | none => .error .badTag
    | _, _ => .error .badTag
  | c :: cs =>
    if 0 < more then .error .badTag
    else if isTagChar verbatim c then
      (tagOctetsFrom verbatim 0 cs).map fun (text, rest) => (c :: text, rest)
    else .ok ([], c :: cs)
  | [] => if 0 < more then .error .badTag else .ok ([], [])

/-- The octets of a tag, and the cursor behind them. -/
def scanTagOctets (verbatim : Bool) (cursor : Cursor) : Except Fault (List Char × Cursor) := do
  let (octets, rest) ← tagOctetsFrom verbatim 0 cursor.rest
  return (octets, cursor.skip (cursor.rest.length - rest.length))

/-- What octets make of a tag: an octet of zero ends it, whatever comes behind. -/
def tagText (octets : List Char) : String := String.ofList (octets.takeWhile (· != '\x00'))

/-- The handle at the start of a tag: an exclamation mark, with a name and a second one if there is
one behind the name. -/
def scanHandle (cursor : Cursor) : List Char × Cursor :=
  let (name, after) := (cursor.skip 1).span isNameChar
  match after.rest with
  | '!' :: _ => ('!' :: name ++ ['!'], after.skip 1)
  | _ => ('!' :: name, after)

/-- A tag. -/
def scanTag (inFlow : Bool) (cursor : Cursor) : Except Fault (Token × Cursor) := do
  let (token, cursor) ← match cursor.rest with
    | '!' :: '<' :: _ => do
      let (octets, cursor) ← scanTagOctets true (cursor.skip 2)
      if octets.isEmpty || cursor.rest.head? != some '>' then throw .badTag
      pure (Token.tag "" (tagText octets), cursor.skip 1)
    | _ => do
      let (handle, cursor) := scanHandle cursor
      let (octets, cursor) ← scanTagOctets false cursor
      -- Without a second exclamation mark the name belongs to the suffix.
      if 1 < handle.length ∧ handle.getLast? = some '!' then
        if octets.isEmpty then throw .badTag
        pure (.tag (String.ofList handle) (tagText octets), cursor)
      else
        let suffix := tagText (handle.drop 1 ++ octets)
        if suffix = "" then pure (.tag "" "!", cursor) else pure (.tag "!" suffix, cursor)
  unless endsWord cursor.rest || (inFlow && cursor.rest.head? == some ',') do throw .badTag
  return (token, cursor)

/-- A number of at most nine digits in a version. -/
def scanVersionNumber (cursor : Cursor) : Except Fault (Nat × Cursor) :=
  let (digits, cursor) := cursor.span Char.isDigit
  match Decimal.digits? 10 digits with
  | some n => if digits.length ≤ 9 then .ok (n, cursor) else .error .badDirective
  | none => .error .badDirective

/-- A directive, with the rest of its line. -/
def scanDirective (cursor : Cursor) : Except Fault (Token × Cursor) := do
  let (name, cursor) := (cursor.skip 1).span isNameChar
  unless endsWord cursor.rest do throw .badDirective
  let cursor := cursor.skipWhile isPad
  let (token, cursor) ←
    if name = "YAML".toList then do
      let (major, cursor) ← scanVersionNumber cursor
      unless cursor.rest.head? == some '.' do throw .badDirective
      let (minor, cursor) ← scanVersionNumber (cursor.skip 1)
      pure (Token.version major minor, cursor)
    else if name = "TAG".toList then do
      unless cursor.rest.head? == some '!' do throw .badDirective
      let (handle, cursor) := scanHandle cursor
      unless handle.getLast? == some '!' && cursor.rest.head?.any isPad do throw .badDirective
      let (octets, cursor) ← scanTagOctets true (cursor.skipWhile isPad)
      unless !octets.isEmpty && endsWord cursor.rest do throw .badDirective
      pure (.tagHandle (String.ofList handle) (tagText octets), cursor)
    else throw .badDirective
  let cursor := cursor.skipComment
  unless endsLine cursor.rest do throw .badDirective
  return (token, cursor.skip 1)

/-! ## The scan -/

/-- The start of what may turn out to be a key, with the number of tokens before it. Where it is
required, nothing else than a key may start there. -/
structure Candidate where
  required : Bool
  position : Nat
  place : Place

/-- What has been cut off, and what decides how to go on: the columns of the open blocks, innermost
first, whether a key may start here, and what may turn out to be a key at the current level of
brackets and, innermost first, at each enclosing one. -/
structure Scan where
  cursor : Cursor
  indents : List Nat := []
  keyAllowed : Bool := true
  candidate : Option Candidate := none
  outer : List (Option Candidate) := []
  tokens : List Token := []

namespace Scan

/-- Whether the scan is between brackets. -/
def inFlow (s : Scan) : Bool := !s.outer.isEmpty

/-- The column of the next character. -/
def column (s : Scan) : Nat := s.cursor.place.column

/-- Add a token and go on behind it. -/
def push (s : Scan) (token : Token) (cursor : Cursor) : Scan :=
  { s with tokens := s.tokens ++ [token], cursor }

/-! ### Space between tokens -/

/-- Pass over space, comments and line breaks. Tabs count as space where no key may start, and a
byte order mark at the start of a line, where it takes a column; outside brackets a key may start on
every new line. -/
def spaceFrom (inFlow keyAllowed inComment : Bool) (place : Place) : List Char → Bool × Cursor
  | [] => (keyAllowed, ⟨[], place⟩)
  | c :: rest =>
    if isBreak c then spaceFrom inFlow (keyAllowed || !inFlow) false (place.next c) rest
    else if inComment then spaceFrom inFlow keyAllowed true (place.next c) rest
    else if c = '#' then spaceFrom inFlow keyAllowed true (place.next c) rest
    else if c = ' ' ∨ (c = '\t' ∧ (inFlow ∨ !keyAllowed)) ∨
        (c = byteOrderMark ∧ place.column = 0) then
      spaceFrom inFlow keyAllowed false (place.next c) rest
    else (keyAllowed, ⟨c :: rest, place⟩)

/-- Go on to the next token. -/
def skipSpace (s : Scan) : Scan :=
  let (keyAllowed, cursor) := spaceFrom s.inFlow s.keyAllowed false s.cursor.place s.cursor.rest
  { s with keyAllowed, cursor }

/-! ### Candidates -/

/-- A candidate that is given up: a required one is an error. -/
def giveUp : Option Candidate → Except Fault (Option Candidate)
  | some candidate => if candidate.required then .error .unfinishedKey else .ok none
  | none => .ok none

/-- A key ends on its line and within 1024 bytes: give up a candidate that has grown too old. -/
def refresh (place : Place) : Option Candidate → Except Fault (Option Candidate)
  | some candidate =>
    if candidate.place.line < place.line ∨ candidate.place.index + 1024 < place.index then
      giveUp (some candidate)
    else .ok (some candidate)
  | none => .ok none

/-- Give up all candidates that have grown too old. -/
def dropStale (s : Scan) : Except Fault Scan := do
  let candidate ← refresh s.cursor.place s.candidate
  let outer ← s.outer.mapM (refresh s.cursor.place)
  return { s with candidate, outer }

/-- Give up the candidate at the current level. -/
def dropCandidate (s : Scan) : Except Fault Scan := do
  return { s with candidate := ← giveUp s.candidate }

/-- What follows may turn out to be a key, if a key may start here. -/
def saveCandidate (s : Scan) : Except Fault Scan :=
  if s.keyAllowed then do
    -- At the column of the open block only another key can stand.
    let required := !s.inFlow && s.indents.head? == some s.column
    let s ← s.dropCandidate
    return { s with candidate := some ⟨required, s.tokens.length, s.cursor.place⟩ }
  else .ok s

/-! ### Blocks -/

/-- Close the blocks that stand at columns beyond the given one, or all. -/
def closeBlocks (s : Scan) (column : Option Nat) : Scan :=
  if s.inFlow then s
  else
    let isInside (indent : Nat) := match column with
      | some column => decide (column < indent)
      | none => true
    { s with
      indents := s.indents.dropWhile isInside
      tokens := s.tokens ++ List.replicate (s.indents.takeWhile isInside).length .blockEnd }

/-- Put a token in front of those from a position on. -/
def insertAt (s : Scan) (position : Nat) (token : Token) : Scan :=
  { s with tokens := s.tokens.take position ++ token :: s.tokens.drop position }

/-- Open a block at a column, unless one is open that stands there or further in. -/
def openBlock (s : Scan) (column position : Nat) (token : Token) : Scan :=
  if s.inFlow || s.indents.head?.any (column ≤ ·) then s
  else { s.insertAt position token with indents := column :: s.indents }

/-! ### One token -/

/-- A mark between documents: all blocks are closed. -/
def fetchBoundary (s : Scan) (scan : Cursor → Except Fault (Token × Cursor)) :
    Except Fault Scan := do
  let s ← (s.closeBlocks none).dropCandidate
  let (token, cursor) ← scan s.cursor
  return { s.push token cursor with keyAllowed := false }

/-- An opening bracket. -/
def fetchOpening (s : Scan) (token : Token) : Except Fault Scan := do
  let s ← s.saveCandidate
  return { s.push token (s.cursor.skip 1) with
    keyAllowed := true, candidate := none, outer := s.candidate :: s.outer }

/-- A closing bracket. -/
def fetchClosing (s : Scan) (token : Token) : Except Fault Scan := do
  let s ← s.dropCandidate
  let s := s.push token (s.cursor.skip 1)
  match s.outer with
  | [] => return { s with keyAllowed := false }
  | candidate :: outer => return { s with keyAllowed := false, candidate, outer }

/-- A comma between brackets. -/
def fetchComma (s : Scan) : Except Fault Scan := do
  let s ← s.dropCandidate
  return { s.push .flowEntry (s.cursor.skip 1) with keyAllowed := true }

/-- The dash of an entry. -/
def fetchEntry (s : Scan) : Except Fault Scan := do
  unless s.inFlow || s.keyAllowed do throw .misplacedEntry
  let s ← (s.openBlock s.column s.tokens.length .sequenceStart).dropCandidate
  return { s.push .entry (s.cursor.skip 1) with keyAllowed := true }

/-- The question mark of a key. -/
def fetchKey (s : Scan) : Except Fault Scan := do
  unless s.inFlow || s.keyAllowed do throw .misplacedKey
  let s ← (s.openBlock s.column s.tokens.length .mappingStart).dropCandidate
  return { s.push .key (s.cursor.skip 1) with keyAllowed := !s.inFlow }

/-- The colon of a value: if there is a candidate, it is a key. -/
def fetchValue (s : Scan) : Except Fault Scan := do
  match s.candidate with
  | some candidate =>
    -- The mapping has to open in front of its first key, so its token goes there last.
    let s := s.insertAt candidate.position .key
    let s := s.openBlock candidate.place.column candidate.position .mappingStart
    return { s.push .value (s.cursor.skip 1) with candidate := none, keyAllowed := false }
  | none =>
    unless s.inFlow || s.keyAllowed do throw .misplacedValue
    let s := s.openBlock s.column s.tokens.length .mappingStart
    return { s.push .value (s.cursor.skip 1) with keyAllowed := !s.inFlow }

/-- A token that may turn out to be a key. -/
def fetchSimple (s : Scan) (scan : Cursor → Except Fault (Token × Cursor)) :
    Except Fault Scan := do
  let s ← s.saveCandidate
  let (token, cursor) ← scan s.cursor
  return { s.push token cursor with keyAllowed := false }

/-- A plain scalar: behind it a key may start only if a line break follows. -/
def fetchPlain (s : Scan) : Except Fault Scan := do
  let s ← s.saveCandidate
  let indent := s.indents.head?.elim 0 (· + 1)
  let scalar ← plainFrom s.inFlow indent {} s.cursor.place s.cursor.rest
  return { s.push (.scalar (String.ofList scalar.text) .plain) scalar.cursor with
    keyAllowed := scalar.broken }

/-- A block scalar. -/
def fetchBlock (s : Scan) (literal : Bool) : Except Fault Scan := do
  let s ← s.dropCandidate
  let (text, cursor) ← blockScalar literal s.indents.head? (s.cursor.skip 1)
  let style : ScalarStyle := if literal then .literal else .other
  return { s.push (.scalar (String.ofList text) style) cursor with keyAllowed := true }

/-- A quoted scalar. -/
def scanQuoted (single : Bool) (cursor : Cursor) : Except Fault (Token × Cursor) := do
  let cursor := cursor.skip 1
  let (text, cursor) ← quotedFrom single .word cursor.place cursor.rest
  return (.scalar (String.ofList text) .other, cursor)

/-- Characters that never start a plain scalar. -/
def isIndicator (c : Char) : Bool := ",[]\x7b\x7d#&*!|>'\"%@`".contains c

/-- Cut off the token that starts with `c`, with `rest` behind it. -/
def fetch (s : Scan) (c : Char) (rest : List Char) : Except Fault Scan :=
  -- Directives and marks between documents count at the start of a line only.
  if s.column = 0 ∧ c = '%' then s.fetchBoundary scanDirective
  else if s.column = 0 ∧ startsDocument (c :: rest) then
    s.fetchBoundary fun cursor => .ok (.documentStart, cursor.skip 3)
  else if s.column = 0 ∧ endsDocument (c :: rest) then
    s.fetchBoundary fun cursor => .ok (.documentEnd, cursor.skip 3)
  -- Brackets and what separates items between them.
  else if c = '[' then s.fetchOpening .flowSequenceStart
  else if c = '{' then s.fetchOpening .flowMappingStart
  else if c = ']' then s.fetchClosing .flowSequenceEnd
  else if c = '}' then s.fetchClosing .flowMappingEnd
  else if c = ',' then s.fetchComma
  -- Signs of entries, keys and values: space has to follow, or they belong to a plain scalar.
  else if c = '-' ∧ endsWord rest then s.fetchEntry
  else if c = '?' ∧ (s.inFlow ∨ endsWord rest) then s.fetchKey
  else if c = ':' ∧ (s.inFlow ∨ endsWord rest) then s.fetchValue
  -- Names, tags and the scalars that an indicator opens.
  else if c = '*' then s.fetchSimple fun cursor => do
    let (name, cursor) ← scanName (cursor.skip 1)
    return (.alias name, cursor)
  else if c = '&' then s.fetchSimple fun cursor => do
    let (name, cursor) ← scanName (cursor.skip 1)
    return (.anchor name, cursor)
  else if c = '!' then s.fetchSimple (scanTag s.inFlow)
  else if c = '|' ∧ !s.inFlow then s.fetchBlock true
  else if c = '>' ∧ !s.inFlow then s.fetchBlock false
  else if c = '\'' then s.fetchSimple (scanQuoted true)
  else if c = '"' then s.fetchSimple (scanQuoted false)
  -- Nothing is left but a plain scalar, which cannot start with an indicator.
  else if isIndicator c || isPad c then .error .strayCharacter
  else s.fetchPlain

/-- Go on to the next token: what comes before it may close blocks. -/
def advance (s : Scan) : Except Fault Scan := do
  let s ← s.skipSpace.dropStale
  return s.closeBlocks (some s.column)

/-- The tokens when nothing is left. -/
def finish (s : Scan) : Except Fault (List Token) := do
  return (← (s.closeBlocks none).dropCandidate).tokens

/-- Cut off all tokens; each takes at least one character, which bounds their number by `fuel`. -/
def run : (fuel : Nat) → Scan → Except Fault (List Token)
  | 0, s => do
    let s ← s.advance
    if s.cursor.rest.isEmpty then s.finish else .error .strayCharacter
  | fuel + 1, s => do
    let s ← s.advance
    match s.cursor.rest with
    | [] => s.finish
    | c :: rest => run fuel (← s.fetch c rest)

end Scan

/-- The tokens of a text. -/
def Token.ofText (text : String) : Except Fault (List Token) :=
  let cs := text.toList
  if cs.all isAllowed then
    let cs := unifyBreaks cs
    Scan.run cs.length { cursor := { rest := cs } }
  else .error .forbiddenCharacter

end BindingGraph.Yaml
