import BindingGraph.Settings.Document
import BindingGraph.Yaml.Node
import BindingGraph.Yaml.Writing

/-!
# The configuration of a workspace

A workspace keeps a YAML file that says where its graphs are and with which settings queries run.
What is left out has its default, and an empty file is all defaults. Fields that have no meaning
here are passed over; one that has may be given only once.
-/

namespace BindingGraph

/-- What a workspace is configured to. The graphs are a directory of graph files, or a single one,
seen from the root of the workspace. -/
structure Configuration where
  graphs : String := ".tangle/graphs"
  engine : Settings := {}
  deriving DecidableEq

/-! ## Reading -/

namespace Yaml.Document

/-- The text of a scalar, however it is written. -/
def text (document : Document) (node : Node) : Except Fault String :=
  match document.resolve node with
  | .scalar text _ _ => .ok text
  | _ => .error (.unexpectedValue "a string")

/-- The natural number of sixty-four bits that a scalar stands for. Only a plain scalar can, or a
block that is tagged as an integer. -/
def number (document : Document) (node : Node) : Except Fault Nat :=
  let fault := Fault.unexpectedValue "a number"
  match document.resolve node with
  | .scalar text style tag =>
    if style = .plain ∨ (style = .literal ∧ tag = some "tag:yaml.org,2002:int") then
      match natural? Decimal.maxWord text.toList with
      | some n => .ok n
      | none => .error fault
    else .error fault
  | _ => .error fault

/-- A number or nothing: a plain scalar that is empty or a spelling of nothing. A tag other than the
one for nothing makes it something. -/
def number? (document : Document) (node : Node) : Except Fault (Option Nat) :=
  match document.resolve node with
  | .scalar text .plain none =>
    if text = "" ∨ isNull text.toList then .ok none else some <$> document.number node
  | .scalar text .plain (some "tag:yaml.org,2002:null") =>
    if isNull text.toList then .ok none else .error (.unexpectedValue "null")
  | _ => some <$> document.number node

/-- The fields of a mapping with their names. A value that was left out has none. -/
def fields (document : Document) (node : Node) : Except Fault (List (String × Node)) :=
  match document.resolve node with
  | .mapping entries => entries.mapM fun (key, value) => do return (← document.text key, value)
  | .scalar "" .plain _ => .ok []
  | _ => .error (.unexpectedValue "a mapping")

/-- The value of a field, which may be given once. -/
def field? (fields : List (String × Node)) (name : String) : Except Fault (Option Node) :=
  match fields.filter (·.1 == name) with
  | [] => .ok none
  | [(_, value)] => .ok (some value)
  | _ => .error (.repeatedField name)

end Yaml.Document

/-- The settings in a mapping. -/
def Settings.ofNode (document : Yaml.Document) (node : Yaml.Node) : Except Yaml.Fault Settings := do
  let fields ← document.fields node
  return ofDraft
    { maxEditDistance := ← (← Yaml.Document.field? fields "max-edit-distance").mapM document.number
      maxSuggestions := ← (← Yaml.Document.field? fields "max-suggestions").mapM document.number?
      timeoutMillis := ← (← Yaml.Document.field? fields "timeout-ms").mapM document.number? }

namespace Configuration

/-- The configuration in a document. -/
def ofDocument (document : Yaml.Document) : Except Yaml.Fault Configuration := do
  match document.root with
  | none => return {}
  | some root =>
    let fields ← document.fields root
    let graphs ← (← Yaml.Document.field? fields "graphs").mapM document.text
    let engine ← (← Yaml.Document.field? fields "engine").mapM (Settings.ofNode document)
    let default : Configuration := {}
    return { graphs := graphs.getD default.graphs, engine := engine.getD default.engine }

/-- The configuration that a text holds. -/
def ofText (text : String) : Except Yaml.Fault Configuration := do
  ofDocument (← Yaml.Document.ofText text)

/-! ## Writing -/

/-- A number, or the spelling of nothing. -/
def numberText : Option Nat → String
  | some n => toString n
  | none => "null"

/-- The configuration as a text. -/
def text (configuration : Configuration) : String :=
  "graphs: " ++ Yaml.scalarLine configuration.graphs ++ "engine:\n" ++
    s!"  max-edit-distance: {configuration.engine.maxEditDistance}\n" ++
    "  max-suggestions: " ++ numberText configuration.engine.maxSuggestions ++ "\n" ++
    "  timeout-ms: " ++ numberText configuration.engine.timeoutMillis ++ "\n"

end Configuration

end BindingGraph
