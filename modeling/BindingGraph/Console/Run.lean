import BindingGraph.Console.Arguments
import BindingGraph.Console.Commands

/-!
# Running an invocation

An invocation runs in the current directory of a file tree, with the input and the settings of its
surroundings. It succeeds unless its command fails; the reason of a failure is printed last.
-/

namespace BindingGraph.Console

open Report (Output Palette Presentation)

/-- What an invocation finds around it: whether colours are switched off for all programs, the
colour setting for this one, whether the terminal understands escape sequences, and the input. -/
structure Surroundings where
  noColor : Bool := false
  color : Option String := none
  ansi : Bool := false
  input : List UInt8 := []

/-- Whether colours are wanted: by default they are. -/
def Surroundings.wantsColors (surroundings : Surroundings) : Bool :=
  !surroundings.noColor &&
    match surroundings.color with
    | some setting => setting != "0" && !Text.sameUpToCase setting "false"
    | none => true

/-- How an invocation ends. -/
structure Result where
  succeeded : Bool
  output : Output

/-- How reports are presented. -/
def Invocation.presentation (invocation : Invocation) (surroundings : Surroundings) :
    Presentation where
  json := invocation.json
  palette := { colors := surroundings.wantsColors, ansi := surroundings.ansi }

/-- The end of an invocation: the reason of a failure is printed last. -/
def Outcome.result (view : Presentation) (outcome : Outcome) : Result :=
  match outcome.failure with
  | none => ⟨true, outcome.output⟩
  | some failure => ⟨false, outcome.output ++ Report.failure view failure.message⟩

/-- The absolute path of a location. -/
def pathOfLocation (place : Location) : FilePath := .ofBody [""] place

/-- Run an invocation. -/
def Invocation.run (surroundings : Surroundings) (invocation : Invocation) :
    StateM FileTree Result := do
  let view := invocation.presentation surroundings
  let directory := pathOfLocation (← get).current
  let outcome ← match invocation.command with
    | some command => command.perform view directory invocation.graphs surroundings.input
    | none => pure { output := greeting }
  return outcome.result view

end BindingGraph.Console
