import BindingGraph.Json.Document
import BindingGraph.Json.Expect

/-!
# Binding records

A record declares one binding: its key and the names it depends on. A graph file holds one record to
a line, as a JSON object. The dependencies may be left out.
-/

namespace BindingGraph

/-- A binding and its direct dependencies. -/
structure Record where
  key : String
  dependencies : List String := []
  deriving DecidableEq

namespace Record

/-- The record as a JSON document. -/
def document (record : Record) : Json.Document :=
  .object [("key", .string record.key), ("dependencies", .strings record.dependencies)]

/-- The record on one line. -/
def text (record : Record) : String := record.document.compact

/-- A record of which not all fields have been read. -/
structure Draft where
  key : Option String := none
  dependencies : Option (List String) := none

open Json Json.Reader in
/-- The fields of a record. -/
def fields : List (Reader.Field Draft) :=
  [{ name := "key"
     isSet := (·.key.isSome)
     read := fun draft => do return { draft with key := some (← string "a string") } },
   { name := "dependencies"
     isSet := (·.dependencies.isSome)
     read := fun draft => do
       return { draft with dependencies := some (← list (string "a string")) } }]

/-- The record of a draft with a key. -/
def ofDraft (fault : Json.Fault) (draft : Draft) : Except Json.Fault Record :=
  match draft.key with
  | some key => .ok ⟨key, draft.dependencies.getD []⟩
  | none => .error fault

/-- Read a record. -/
def reader : Json.Reader Record :=
  Json.Reader.fielded "struct BindingRecord" fields {} (ofDraft (.missingField "key"))
    (ofDraft (.wrongLength 0 "struct BindingRecord with 2 elements"))

/-- The record that a text holds. -/
def decode (text : String) : Except Json.Failure Record :=
  Json.Reader.readAll reader text

end Record

end BindingGraph
