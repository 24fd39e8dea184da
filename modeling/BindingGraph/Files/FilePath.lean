import BindingGraph.Text.Separated

/-!
# Paths of files

A path is a text whose parts stand between slashes; it is absolute if it starts with a slash.
Joining paths and taking the parent look at the text only: `..` is a part like any other, while
parts that are empty or a single dot do not count at the end.
-/

namespace BindingGraph

/-- A path, by what stands between its slashes, also where that is nothing. -/
structure FilePath where
  parts : List String
  deriving DecidableEq

namespace FilePath

/-- The path that a text is. -/
def ofText (text : String) : FilePath := ⟨Text.splitOn "/" text⟩

/-- The path as a text. -/
def text (path : FilePath) : String := "/".intercalate path.parts

/-- Whether a path starts with a slash. -/
def isAbsolute (path : FilePath) : Bool :=
  match path.parts with
  | "" :: _ :: _ => true
  | _ => false

/-- A path seen from another one. An absolute path stands for itself. -/
def join (base path : FilePath) : FilePath :=
  if path.isAbsolute then path
  else if base.parts.getLast? = some "" then ⟨base.parts.dropLast ++ path.parts⟩
  else ⟨base.parts ++ path.parts⟩

/-- The path extended by one name. -/
def child (base : FilePath) (name : String) : FilePath := base.join (ofText name)

/-- Whether a part names nothing. -/
def isTrivial (part : String) : Bool := part = "" || part = "."

/-- Drop the parts at the end that name nothing. -/
def trimEnd (parts : List String) : List String := (parts.reverse.dropWhile isTrivial).reverse

/-- The first part of a path, which always counts: the empty one of an absolute path, or a dot. -/
def start (path : FilePath) : List String :=
  match path.parts with
  | "" :: _ :: _ => [""]
  | "." :: _ => ["."]
  | _ => []

/-- The parts behind `start` without those at the end that name nothing. -/
def body (path : FilePath) : List String := trimEnd (path.parts.drop path.start.length)

/-- A path from its first part and the others. -/
def ofBody (start body : List String) : FilePath :=
  match start ++ body with
  | [] => ⟨[""]⟩
  | [""] => ⟨["", ""]⟩
  | parts => ⟨parts⟩

/-- The path without its last part. The empty path and the root have no parent. -/
def parent? (path : FilePath) : Option FilePath :=
  match path.body with
  | [] => if path.start = ["."] then some (ofBody [] []) else none
  | part :: parts => some (ofBody path.start (trimEnd (part :: parts).dropLast))

/-- The name of the file, if the path ends in one. -/
def fileName? (path : FilePath) : Option String := path.body.getLast?.filter (· ≠ "..")

/-- A file name cut at its last dot: the stem and what follows the dot. A dot at the very front does
not count. -/
def splitName (name : String) : String × Option String :=
  match name.toList.reverse.span (· != '.') with
  | (_, []) | (_, [_]) => (name, none)
  | (extension, _ :: stem) =>
    (String.ofList stem.reverse, some (String.ofList extension.reverse))

/-- The file name without its extension. -/
def stem? (path : FilePath) : Option String := path.fileName?.map (splitName · |>.1)

/-- The path up to the dot of its extension, if its text ends in one. -/
def upToExtension (path : FilePath) : FilePath :=
  match path.fileName?.map splitName with
  | some (stem, some _) =>
    if path.parts.getLast? = path.fileName? then ⟨path.parts.dropLast ++ [stem ++ "."]⟩ else path
  | _ => path

/-- The path with another extension, or with one. What stands up to the old extension has to name a
file: otherwise, as the `..` of `..jsonl`, it is all that is left. -/
def withExtension (path : FilePath) (extension : String) : FilePath :=
  let path := path.upToExtension
  match path.stem? with
  | some stem => ofBody path.start (path.body.dropLast ++ [stem ++ "." ++ extension])
  | none => path

end FilePath

end BindingGraph
