import BindingGraph.Json.Document
import BindingGraph.Json.Expect
import BindingGraph.Path
import BindingGraph.Query.Basic

/-!
# Queries, kinds and paths as JSON

A kind is written as its name. It is read from its name, in this case exactly as it is written, or
from an object with the name as its only key and `null` as the value.
-/

namespace BindingGraph

namespace QueryKind

/-- The kind as a JSON document. -/
def document (kind : QueryKind) : Json.Document := .string kind.name

open Json Json.Reader in
/-- The kind of a name that has just been read. -/
def ofExactName (name : String) : Reader QueryKind :=
  match all.find? (·.name == name) with
  | some kind => pure kind
  | none => failHere (.unknownVariant name (all.map QueryKind.name))

open Json Json.Reader in
/-- Read the only key of an object, which is a string. -/
def onlyKey : Reader String := do
  match ← peekToken? with
  | some '"' => do skip; literal
  | some '}' => failNext .valueExpected
  | some _ => failNext .keyNotString
  | none => failNext .objectEnds

open Json Json.Reader in
/-- Read a kind. -/
def reader : Reader QueryKind := do
  match ← peekToken? with
  | some '"' => do skip; ofExactName (← literal)
  | some '{' => do
    skip
    let kind ← ofExactName (← onlyKey)
    colon
    null "unit"
    match ← peekToken? with
    | some '}' => do skip; return kind
    | some _ => failHere .valueExpected
    | none => failHere .objectEnds
  | some _ => failNext .valueExpected
  | none => failNext .valueEnds

/-- The kind that a text holds. -/
def decode (text : String) : Except Json.Failure QueryKind :=
  Json.Reader.readAll reader text

end QueryKind

/-- The query as a JSON document. -/
def Query.document (query : Query) : Json.Document :=
  .object [("kind", query.kind.document), ("parameters", .strings query.parameters)]

/-- The path as a JSON document, the list of its names. -/
def Path.document (path : Path) : Json.Document := .strings path.nodes

end BindingGraph
