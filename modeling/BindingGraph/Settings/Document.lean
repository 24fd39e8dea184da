import BindingGraph.Json.Document
import BindingGraph.Json.Expect
import BindingGraph.Settings

/-!
# Engine settings as JSON

The three settings by name. Any that is left out keeps its default.
-/

namespace BindingGraph.Settings

/-- A number or nothing. -/
def optionalNumber : Option Nat → Json.Document
  | some value => .number value
  | none => .null

/-- The settings as a JSON document. -/
def document (settings : Settings) : Json.Document :=
  .object [("max-edit-distance", .number settings.maxEditDistance),
    ("max-suggestions", optionalNumber settings.maxSuggestions),
    ("timeout-ms", optionalNumber settings.timeoutMillis)]

/-- Settings of which not all have been given; `some none` is an explicit nothing. -/
structure Draft where
  maxEditDistance : Option Nat := none
  maxSuggestions : Option (Option Nat) := none
  timeoutMillis : Option (Option Nat) := none

/-- The settings of a draft, with the defaults for those that were not given. -/
def ofDraft (draft : Draft) : Settings :=
  let default : Settings := {}
  { maxEditDistance := draft.maxEditDistance.getD default.maxEditDistance
    maxSuggestions := draft.maxSuggestions.getD default.maxSuggestions
    timeoutMillis := draft.timeoutMillis.getD default.timeoutMillis }

open Json Json.Reader in
/-- The settings by name. -/
def fields : List (Reader.Field Draft) :=
  [{ name := "max-edit-distance"
     isSet := (·.maxEditDistance.isSome)
     read := fun draft => do return { draft with maxEditDistance := some (← natural "usize") } },
   { name := "max-suggestions"
     isSet := (·.maxSuggestions.isSome)
     read := fun draft => do
       return { draft with maxSuggestions := some (← optional (natural "usize")) } },
   { name := "timeout-ms"
     isSet := (·.timeoutMillis.isSome)
     read := fun draft => do
       return { draft with timeoutMillis := some (← optional (natural "u64")) } }]

/-- Read settings. -/
def reader : Json.Reader Settings :=
  Json.Reader.fielded "struct EngineConfig" fields {} (.ok ∘ ofDraft) (.ok ∘ ofDraft)

/-- The settings that a text holds. -/
def decode (text : String) : Except Json.Failure Settings :=
  Json.Reader.readAll reader text

end BindingGraph.Settings
