import BindingGraph.Yaml.Token

/-!
# The value that a YAML text holds

The tokens of a text form at most one document, whose root is a scalar, a sequence or a mapping. A
node that has an anchor can be referred to by an alias, also from within itself, so anchored nodes
are kept in a table beside the root. Texts with more than one document are refused.

Aliases refer to numbers. An anchor gets the number of different names in use before it, so a name
that is used again shares its number with the anchors behind it until a new name comes, and with
that one too. Of the nodes with one number the last to start counts, wherever the alias stands.
-/

namespace BindingGraph.Yaml

/-- A value, or a reference to an anchored node, by its number. -/
inductive Node where
  | scalar (text : String) (style : ScalarStyle) (tag : Option String)
  | sequence (items : List Node)
  | mapping (entries : List (Node × Node))
  | alias (target : Nat)

/-- What stands where a value was left out. -/
def Node.missing : Node := .scalar "" .plain none

/-- A document: its value, unless the text is empty, and the anchored nodes with their numbers,
those that start later first. -/
structure Document where
  root : Option Node
  anchored : List (Nat × Node) := []

/-- The node that a node stands for. -/
def Document.resolve (document : Document) (node : Node) : Node :=
  match node with
  | .alias target => (document.anchored.lookup target).getD node
  | node => node

/-! ## Reading tokens -/

/-- The tokens that are left, and what has been declared so far: what the handles of tags stand for,
the names in use, each with the number of its latest anchor, and the anchored nodes as in a
document. -/
structure Reading where
  tokens : List Token
  handles : List (String × String) := [("!", "!"), ("!!", "tag:yaml.org,2002:")]
  anchors : List (String × Nat) := []
  anchored : List (Nat × Node) := []

/-- A step of reading. -/
abbrev NodeReader := StateT Reading (Except Fault)

namespace NodeReader

/-- The next token, which stays to be read. -/
def peek? : NodeReader (Option Token) := return (← get).tokens.head?

/-- Pass over the next token. -/
def skip : NodeReader Unit := modify fun reading => { reading with tokens := reading.tokens.drop 1 }

/-- Whether the next token is one of the given ones. -/
def isNext (tokens : List Token) : NodeReader Bool := do
  return (← peek?).any tokens.contains

/-- Pass over the next token if it is the given one. -/
def skipIf (token : Token) : NodeReader Bool := do
  if ← isNext [token] then
    skip
    return true
  else return false

/-- What a tag stands for. -/
def resolveTag (handle suffix : String) : NodeReader String := do
  if handle = "" then return suffix
  match (← get).handles.lookup handle with
  | some expansion => return expansion ++ suffix
  | none => throw (.unknownTagHandle handle)

/-- The number of a new anchor, which its name stands for from now on. -/
def declareAnchor (name : String) : NodeReader Nat := do
  let number := (← get).anchors.length
  modify fun reading =>
    { reading with anchors := (name, number) :: reading.anchors.filter (·.1 != name) }
  return number

/-- Keep an anchored node that has been read. When it started, `earlier` nodes were kept; what has
come in front of them since started within it. -/
def keepAnchored (number : Nat) (found : Node) (earlier : Nat) : NodeReader Unit :=
  modify fun reading =>
    let within := reading.anchored.length - earlier
    { reading with
      anchored := reading.anchored.take within ++ (number, found) :: reading.anchored.drop within }

/-- An anchor, if one is next. -/
def anchor? : NodeReader (Option String) := do
  match ← peek? with
  | some (.anchor name) => do skip; return some name
  | _ => return none

/-- A tag, if one is next. -/
def tag? : NodeReader (Option (String × String)) := do
  match ← peek? with
  | some (.tag handle suffix) => do skip; return some (handle, suffix)
  | _ => return none

/-- The anchor and the tag of a node, which come in either order. -/
def properties : NodeReader (Option String × Option String) := do
  let anchor ← anchor?
  let tag ← tag?
  let anchor := anchor <|> (← if anchor.isNone && tag.isSome then anchor? else pure none)
  let tag ← tag.mapM fun (handle, suffix) => resolveTag handle suffix
  return (anchor, tag)

mutual

/-- Read a node. Outside brackets it may be a block; as the value or the key of a mapping it may be
a sequence that is not indented. Each call reads a token or calls a reader that does, which bounds
their depth by `fuel`. -/
def node (fuel : Nat) (block indentless : Bool) : NodeReader Node := do
  match fuel with
  | 0 => throw .nodeExpected
  | fuel + 1 =>
    if let some (.alias name) ← peek? then
      skip
      match (← get).anchors.lookup name with
      | some number => return .alias number
      | none => throw (.unknownAnchor name)
    let (anchor, tag) ← properties
    let number? ← anchor.mapM declareAnchor
    let earlier := (← get).anchored.length
    let found ← content fuel block indentless (anchor.isSome || tag.isSome) tag
    if let some number := number? then keepAnchored number found earlier
    return found

/-- Read what stands behind the anchor and the tag of a node. -/
def content (fuel : Nat) (block indentless hasProperties : Bool) (tag : Option String) :
    NodeReader Node := do
  match fuel with
  | 0 => throw .nodeExpected
  | fuel + 1 =>
    match ← peek? with
    | some (.scalar text style) => do
      skip
      return .scalar text style tag
    | some .flowSequenceStart => do skip; return .sequence (← flowItems fuel true)
    | some .flowMappingStart => do skip; return .mapping (← flowEntries fuel true)
    | next =>
      if next = some .entry ∧ indentless then return .sequence (← indentlessItems fuel)
      else if next = some .sequenceStart ∧ block then
        skip
        return .sequence (← blockItems fuel)
      else if next = some .mappingStart ∧ block then
        skip
        return .mapping (← blockEntries fuel)
      else if hasProperties then return .scalar "" .plain tag
      else throw .nodeExpected

/-- Read the entries of an indented sequence and its end. -/
def blockItems (fuel : Nat) : NodeReader (List Node) := do
  match fuel with
  | 0 => throw .nodeExpected
  | fuel + 1 =>
    if ← skipIf .blockEnd then return []
    unless ← skipIf .entry do throw .entryExpected
    let item ← if ← isNext [.entry, .blockEnd] then pure .missing else node fuel true false
    return item :: (← blockItems fuel)

/-- Read the entries of a sequence that is not indented. -/
def indentlessItems (fuel : Nat) : NodeReader (List Node) := do
  match fuel with
  | 0 => throw .nodeExpected
  | fuel + 1 =>
    if ← skipIf .entry then
      let item ← if ← isNext [.entry, .key, .value, .blockEnd] then pure .missing
        else node fuel true false
      return item :: (← indentlessItems fuel)
    else return []

/-- Read a key or a value of an indented mapping, which may be left out. -/
def blockPart (fuel : Nat) : NodeReader Node := do
  match fuel with
  | 0 => throw .nodeExpected
  | fuel + 1 =>
    if ← isNext [.key, .value, .blockEnd] then return .missing else node fuel true true

/-- Read the entries of an indented mapping and its end. -/
def blockEntries (fuel : Nat) : NodeReader (List (Node × Node)) := do
  match fuel with
  | 0 => throw .nodeExpected
  | fuel + 1 =>
    if ← skipIf .blockEnd then return []
    unless ← skipIf .key do throw .keyExpected
    let key ← blockPart fuel
    let value ← if ← skipIf .value then blockPart fuel else pure .missing
    return (key, value) :: (← blockEntries fuel)

/-- Read the items of a sequence in brackets and the closing bracket. A key and its value are an
item of their own, a mapping with one entry. -/
def flowItems (fuel : Nat) (first : Bool) : NodeReader (List Node) := do
  match fuel with
  | 0 => throw .nodeExpected
  | fuel + 1 =>
    if ← skipIf .flowSequenceEnd then return []
    unless first do
      unless ← skipIf .flowEntry do throw .separatorExpected
    if ← skipIf .flowSequenceEnd then return []
    let item ← if ← skipIf .key then flowPair fuel else node fuel false false
    return item :: (← flowItems fuel false)

/-- Read the key and the value of an item. The token behind a key that is left out is
passed over. -/
def flowPair (fuel : Nat) : NodeReader Node := do
  match fuel with
  | 0 => throw .nodeExpected
  | fuel + 1 =>
    let key ← if ← isNext [.value, .flowEntry, .flowSequenceEnd] then do
        skip
        pure Node.missing
      else node fuel false false
    let value ← if ← skipIf .value then
        if ← isNext [.flowEntry, .flowSequenceEnd] then pure Node.missing
        else node fuel false false
      else pure .missing
    return .mapping [(key, value)]

/-- Read the entries of a mapping in brackets and the closing bracket. -/
def flowEntries (fuel : Nat) (first : Bool) : NodeReader (List (Node × Node)) := do
  match fuel with
  | 0 => throw .nodeExpected
  | fuel + 1 =>
    if ← skipIf .flowMappingEnd then return []
    unless first do
      unless ← skipIf .flowEntry do throw .separatorExpected
    if ← skipIf .flowMappingEnd then return []
    let entry ← if ← skipIf .key then do
        let key ← if ← isNext [.value, .flowEntry, .flowMappingEnd] then pure Node.missing
          else node fuel false false
        let value ← if ← skipIf .value then
            if ← isNext [.flowEntry, .flowMappingEnd] then pure Node.missing
            else node fuel false false
          else pure .missing
        pure (key, value)
      else do
        pure (← node fuel false false, Node.missing)
    return entry :: (← flowEntries fuel false)

end

/-! ## Documents -/

/-- Read the directives in front of a document. The version may be given once, each handle once. -/
def directives (version : Bool) (handles : List String) : List Token → NodeReader Unit
  | .version major minor :: tokens => do
    if version || major != 1 || !(minor == 1 || minor == 2) then throw .badDirective
    skip
    directives true handles tokens
  | .tagHandle handle expansion :: tokens => do
    if handles.contains handle then throw .badDirective
    skip
    modify fun reading => { reading with handles := (handle, expansion) :: reading.handles }
    directives version (handle :: handles) tokens
  | _ => pure ()

/-- Read the root of a document, which may be left out behind the mark that starts it. -/
def root (fuel : Nat) (marked : Bool) : NodeReader Node := do
  match ← peek? with
  | none | some .documentStart | some .documentEnd | some (.version _ _) | some (.tagHandle _ _) =>
    if marked then return .missing else node fuel true false
  | some _ => node fuel true false

/-- Read the only document. -/
def document (fuel : Nat) : NodeReader (Option Node) := do
  let tokens := (← get).tokens
  if tokens.isEmpty then return none
  directives false [] tokens
  let declared := (← get).tokens.length < tokens.length
  let marked ← skipIf .documentStart
  if declared && !marked then throw .documentExpected
  let root ← root fuel marked
  unless (← get).tokens.all (· == .documentEnd) do throw .severalDocuments
  return some root

end NodeReader

/-- The document of a list of tokens. -/
def Document.ofTokens (tokens : List Token) : Except Fault Document := do
  let (root, reading) ← (NodeReader.document (4 * tokens.length + 4)).run { tokens }
  return { root, anchored := reading.anchored }

/-- The document of a text. -/
def Document.ofText (text : String) : Except Fault Document := do
  Document.ofTokens (← Token.ofText text)

end BindingGraph.Yaml
