import BindingGraph.Files.FilePath
import BindingGraph.Text.Lines

/-!
# File trees

A file tree says what there is at each location, which is a list of names from the root: a
directory, or a file with its bytes. A path leads to a location step by step, through directories
that exist; `..` goes back from wherever the steps have led. `get?` is the view in which the
operations are described: each of them changes what there is at one location, and a failing one
changes nothing.
-/

namespace BindingGraph

/-! ## Trees -/

/-- The names that lead from the root to a file or a directory. -/
abbrev Location := List String

/-- What there is at a location. -/
inductive Entry where
  | directory
  | file (bytes : List UInt8)
  deriving DecidableEq

/-- The files and directories, and where relative paths start. -/
structure FileTree where
  entries : List (Location × Entry) := []
  current : Location := []

/-- Why an operation on files fails. Of what is read as text the whole may not be text (`notText`),
or one line (`badLine`). -/
inductive FileError where
  | notFound
  | notADirectory
  | isADirectory
  | alreadyExists
  | busy
  | nameTooLong
  | nulInName
  | notText
  | badLine (fault : Text.Utf8Fault)
  deriving DecidableEq

/-- The error in words. -/
def FileError.message : FileError → String
  | .notFound => "No such file or directory (os error 2)"
  | .notADirectory => "Not a directory (os error 20)"
  | .isADirectory => "Is a directory (os error 21)"
  | .alreadyExists => "File exists (os error 17)"
  | .busy => "Device or resource busy (os error 16)"
  | .nameTooLong => "File name too long (os error 36)"
  | .nulInName => "file name contained an unexpected NUL byte"
  | .notText => "stream did not contain valid UTF-8"
  | .badLine fault => fault.message

namespace FileTree

/-- What there is at a location. The root is always a directory. -/
def get? (t : FileTree) (place : Location) : Option Entry :=
  if place = [] then some .directory else t.entries.lookup place

/-- Put an entry at a location, in place of what is there. -/
def put (t : FileTree) (place : Location) (entry : Entry) : FileTree :=
  { t with entries := (place, entry) :: t.entries.filter (·.1 ≠ place) }

/-- Take away what there is at a location. -/
def erase (t : FileTree) (place : Location) : FileTree :=
  { t with entries := t.entries.filter (·.1 ≠ place) }

/-- The names of what there is directly in a directory. -/
def names (t : FileTree) (place : Location) : List String :=
  t.entries.filterMap fun (other, _) =>
    if other.dropLast = place then other.getLast? else none

/-- Take away what there is at a location and below it. -/
def eraseBelow (t : FileTree) (place : Location) : FileTree :=
  { t with entries := t.entries.filter fun (other, _) => !place.isPrefixOf other }

/-- The paths of what there is below a location, seen from there, in order; those of directories end
in a slash. -/
def listing (t : FileTree) (place : Location) : List String :=
  let paths := t.entries.filterMap fun (other, entry) =>
    if place.isPrefixOf other && place.length < other.length then
      let path := "/".intercalate (other.drop place.length)
      some (if entry = .directory then path ++ "/" else path)
    else none
  paths.mergeSort fun a b => decide (a ≤ b)

/-! ## From paths to locations -/

/-- The longest name, in bytes. -/
def maxNameBytes : Nat := 255

/-- The longest path, in bytes. -/
def maxPathBytes : Nat := 4095

/-- Follow parts from a location. Each step starts at a directory. -/
def follow (t : FileTree) (place : Location) : List String → Except FileError Location
  | [] => .ok place
  | part :: parts =>
    match t.get? place with
    | some .directory =>
      if FilePath.isTrivial part then t.follow place parts
      else if part = ".." then t.follow place.dropLast parts
      else if maxNameBytes < part.utf8ByteSize then .error .nameTooLong
      else if (t.get? (place ++ [part])).isSome then t.follow (place ++ [part]) parts
      else .error .notFound
    | some (.file _) => .error .notADirectory
    | none => .error .notFound

/-- The parts of a path and the location at which they start, for a path that can name anything. -/
def origin (t : FileTree) (path : FilePath) : Except FileError (Location × List String) :=
  if path.text.contains '\x00' then .error .nulInName
  else if path.parts = [""] then .error .notFound
  else if maxPathBytes < path.text.utf8ByteSize then .error .nameTooLong
  else .ok (if path.isAbsolute then [] else t.current, path.parts)

/-- The location that a path leads to. -/
def locate (t : FileTree) (path : FilePath) : Except FileError Location := do
  let (place, parts) ← t.origin path
  t.follow place parts

/-- What there is at the end of a path. -/
def entryAt (t : FileTree) (path : FilePath) : Except FileError Entry := do
  match t.get? (← t.locate path) with
  | some entry => .ok entry
  | none => .error .notFound

/-- Whether a path leads to a directory. -/
def isDirectory (t : FileTree) (path : FilePath) : Bool :=
  match t.entryAt path with
  | .ok .directory => true
  | _ => false

/-- Whether a path leads to a file. -/
def isFile (t : FileTree) (path : FilePath) : Bool :=
  match t.entryAt path with
  | .ok (.file _) => true
  | _ => false

/-- Whether a path leads anywhere. -/
def pathExists (t : FileTree) (path : FilePath) : Bool := (t.entryAt path).isOk

/-! ## The place of a new entry -/

/-- The last part of a path as an operation on its parent sees it: a name, and whether a slash
follows it, or else a dot, two dots or the root. -/
inductive LastPart where
  | name (name : String) (slash : Bool)
  | special

/-- The location that all parts but the last lead to, and the last part. -/
def locateParent (t : FileTree) (path : FilePath) : Except FileError (Location × LastPart) := do
  let (place, parts) ← t.origin path
  let slashes := parts.reverse.takeWhile (· = "")
  match parts.reverse.dropWhile (· = "") with
  | [] => .ok ([], .special)
  | last :: front =>
    let parent ← t.follow place front.reverse
    match t.get? parent with
    | some .directory =>
      if last = "." ∨ last = ".." then
        let _ ← t.follow parent [last]
        .ok (parent, .special)
      else .ok (parent, .name last !slashes.isEmpty)
    | some (.file _) => .error .notADirectory
    | none => .error .notFound

/-- What there is under a name in a directory, for a name that is not too long. -/
def lookUp (t : FileTree) (parent : Location) (name : String) : Except FileError (Option Entry) :=
  if maxNameBytes < name.utf8ByteSize then .error .nameTooLong else .ok (t.get? (parent ++ [name]))

end FileTree

/-! ## Operations -/

/-- A step that may fail and may change the tree; what it has changed before it fails
stays changed. -/
abbrev FileAction := ExceptT FileError (StateM FileTree)

namespace FileAction

/-- The answer to a question about the tree. -/
def ask {α : Type} (question : FileTree → Except FileError α) : FileAction α := do
  ExceptT.mk (pure (question (← get)))

/-- The bytes of a file. -/
def read (path : FilePath) : FileAction (List UInt8) := do
  match ← ask (·.entryAt path) with
  | .file bytes => return bytes
  | .directory => throw .isADirectory

/-- The text of a file. -/
def readText (path : FilePath) : FileAction String := do
  match Text.decodeUtf8 (← read path) with
  | .ok text => return text
  | .error _ => throw .notText

/-- The lines of a file. -/
def readLines (path : FilePath) : FileAction (List String) := do
  match Text.linesOfBytes (← read path) with
  | .ok lines => return lines
  | .error fault => throw (.badLine fault)

/-- The names in a directory. -/
def readDirectory (path : FilePath) : FileAction (List String) := do
  let t ← get
  let place ← ask (·.locate path)
  match t.get? place with
  | some .directory => return t.names place
  | some (.file _) => throw .notADirectory
  | none => throw .notFound

/-- Make bytes the contents of a file, which is created if it is not there. -/
def write (path : FilePath) (bytes : List UInt8) : FileAction Unit := do
  match ← ask (·.locateParent path) with
  | (parent, .name name false) =>
    if (← ask (·.lookUp parent name)) = some .directory then throw .isADirectory
    else modify (·.put (parent ++ [name]) (.file bytes))
  | _ => throw .isADirectory

/-- Create a directory whose parent is there. -/
def createDirectory (path : FilePath) : FileAction Unit := do
  match ← ask (·.locateParent path) with
  | (parent, .name name _) =>
    if (← ask (·.lookUp parent name)).isSome then throw .alreadyExists
    else modify (·.put (parent ++ [name]) .directory)
  | (_, .special) => throw .alreadyExists

/-- Create a directory with all directories on its path that are missing, at most `depth`
of them. -/
def createDirectories (path : FilePath) : (depth : Nat) → FileAction Unit
  | 0 => createDirectory path
  | depth + 1 => do
    if path.parts = [""] then return
    match (createDirectory path).run (← get) with
    | (.ok _, t) => set t
    | (.error .notFound, _) => do
      -- A directory above it is missing, so that has to be created first.
      match path.parent? with
      | some parent => createDirectories parent depth
      | none => throw .notFound
      orElseDirectory (createDirectory path)
    | (.error error, t) => unless t.isDirectory path do throw error
where
  -- That the step fails does not matter if there is a directory anyway.
  orElseDirectory (step : FileAction Unit) : FileAction Unit :=
    tryCatch step fun error => do unless (← get).isDirectory path do throw error

/-- Create a directory with all directories on its path. -/
def createPath (path : FilePath) : FileAction Unit := createDirectories path path.parts.length

/-- Move a file to a path, in place of a file that is there. Directories are not moved. -/
def moveFile (source target : FilePath) : FileAction Unit := do
  let old ← ask (·.locateParent source)
  let new ← ask (·.locateParent target)
  match old, new with
  | (oldParent, .name oldName oldSlash), (newParent, .name newName newSlash) =>
    match ← ask (·.lookUp oldParent oldName) with
    | some (.file bytes) =>
      let replaced ← ask (·.lookUp newParent newName)
      -- A slash at the end asks for a directory, whatever is there.
      if oldSlash || newSlash then throw .notADirectory
      else if replaced = some .directory then throw .isADirectory
      else modify fun t =>
        (t.erase (oldParent ++ [oldName])).put (newParent ++ [newName]) (.file bytes)
    | some .directory => throw .isADirectory
    | none => throw .notFound
  | _, _ => throw .busy

/-- Remove a file. -/
def removeFile (path : FilePath) : FileAction Unit := do
  match ← ask (·.locateParent path) with
  | (parent, .name name slash) =>
    match ← ask (·.lookUp parent name) with
    | some (.file _) =>
      if slash then throw .notADirectory else modify (·.erase (parent ++ [name]))
    | some .directory => throw .isADirectory
    | none => throw .notFound
  | (_, .special) => throw .isADirectory

/-- Remove a file, or a directory with all that is in it. -/
def removeAll (path : FilePath) : FileAction Unit := do
  let place ← ask (·.locate path)
  modify (·.eraseBelow place)

end FileAction

end BindingGraph
