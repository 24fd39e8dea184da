import BindingGraph.Graph.Dependency
import BindingGraph.Record.Basic
import BindingGraph.Text.Blank

/-!
# Reading the lines of a graph file

Each line on its own is blank, malformed, a record without a key, or a binding. A ledger collects
the bindings in the order in which their keys first occur; the dependencies of a repeated key join
those that it has. What is dropped or merged leaves a warning with the number of its line. The graph
of a ledger has all keys as its first nodes, in this order.
-/

namespace BindingGraph

/-- Something in a graph file that was dropped or merged: a line that is not a record, a record with
a blank key, a blank dependency, or a key that has occurred before. -/
inductive LoadWarning where
  | malformed (line : Nat) (error : String)
  | emptyKey (line : Nat)
  | emptyDependency (key : String) (line : Nat)
  | duplicateBinding (key : String) (line : Nat)
  deriving DecidableEq

namespace LoadWarning

/-- The line that a warning is about. -/
def line : LoadWarning → Nat
  | .malformed line _ | .emptyKey line | .emptyDependency _ line | .duplicateBinding _ line => line

/-- The warning in words. -/
def message (warning : LoadWarning) : String :=
  s!"line {warning.line}: " ++
    match warning with
    | .malformed _ error => s!"skipped malformed record: {error}"
    | .emptyKey _ => "skipped record with empty key"
    | .emptyDependency key _ => s!"skipped empty dependency of '{key}'"
    | .duplicateBinding key _ => s!"merged duplicate binding '{key}'"

end LoadWarning

/-! ## One line -/

/-- What a line of a graph file holds. A binding has trimmed names; `dropped` of its dependencies
were blank. -/
inductive RecordLine where
  | blank
  | malformed (error : String)
  | emptyKey
  | binding (key : String) (dependencies : List String) (dropped : Nat)

/-- Read a line, trimming it and all names in it. -/
def RecordLine.read (line : String) : RecordLine :=
  let text := Text.trim line
  if text = "" then .blank
  else
    match Record.decode text with
    | .error failure => .malformed (failure.message text)
    | .ok record =>
      let key := Text.trim record.key
      if key = "" then .emptyKey
      else
        let names := record.dependencies.map Text.trim
        .binding key (names.filter (· ≠ "")) (names.filter (· = "")).length

/-! ## All lines -/

/-- What the lines so far have declared: the bindings, each key once and in the order of first
occurrence, and the warnings in line order. -/
structure Ledger where
  bindings : List Record := []
  warnings : List LoadWarning := []

namespace Ledger

/-- Whether a key has occurred. -/
def hasKey (ledger : Ledger) (key : String) : Bool :=
  ledger.bindings.any (·.key == key)

/-- Add the dependencies of a key to those that it has. -/
def merge (bindings : List Record) (key : String) (dependencies : List String) : List Record :=
  bindings.map fun record =>
    if record.key = key then { record with dependencies := record.dependencies ++ dependencies }
    else record

/-- Take a line into account. -/
def accept (ledger : Ledger) (number : Nat) (line : RecordLine) : Ledger :=
  match line with
  | .blank => ledger
  | .malformed error => { ledger with warnings := ledger.warnings ++ [.malformed number error] }
  | .emptyKey => { ledger with warnings := ledger.warnings ++ [.emptyKey number] }
  | .binding key dependencies dropped =>
    let warnings := ledger.warnings ++ List.replicate dropped (.emptyDependency key number)
    if ledger.hasKey key then
      { bindings := merge ledger.bindings key dependencies
        warnings := warnings ++ [.duplicateBinding key number] }
    else
      { bindings := ledger.bindings ++ [⟨key, dependencies⟩], warnings }

/-- The ledger after the given lines, the first of which has the given number. -/
def acceptAll (ledger : Ledger) (number : Nat) : List String → Ledger
  | [] => ledger
  | line :: lines => (ledger.accept number (.read line)).acceptAll (number + 1) lines

/-- The ledger of all lines of a file. -/
def ofLines (lines : List String) : Ledger := ({} : Ledger).acceptAll 1 lines

/-- The graph that a ledger declares: all keys first, then each with its dependencies. -/
def graph (ledger : Ledger) : DependencyGraph :=
  .ofDeclarations
    (ledger.bindings.map (fun record => .node record.key) ++
      ledger.bindings.map fun record => .binding record.key record.dependencies)

end Ledger

/-- A graph with the warnings that reading it raised. -/
structure LoadedGraph where
  graph : DependencyGraph
  warnings : List LoadWarning

/-- Read the lines of a graph file. -/
def LoadedGraph.ofLines (lines : List String) : LoadedGraph :=
  let ledger := Ledger.ofLines lines
  ⟨ledger.graph, ledger.warnings⟩

end BindingGraph
