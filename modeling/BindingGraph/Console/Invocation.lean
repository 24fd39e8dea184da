import BindingGraph.Console.Values
import BindingGraph.Text.Lines
import BindingGraph.Text.Visible

/-!
# What a command line asks for

An invocation is an optional command with two options that any command may be given. The grammar of
command lines has levels: the program's own, and one for each command. `Level.option?` says which
options a level knows; the two common options and the requests for help and for the version are
known at every level.
-/

namespace BindingGraph.Console

/-! ## Invocations -/

/-- A command with its arguments. -/
inductive Command where
  | init (example? quiet : Bool)
  | query (kind : QueryKind) (parameters : List String) (timeoutMillis : Option Nat)
      (perGraph : Bool)
  | repl (timeoutMillis : Option Nat) (quiet : Bool)
  | graphs
  | kinds
  deriving DecidableEq

/-- What a command line asks for; `graphs` is a graph file or a directory of them to use instead of
the workspace's. -/
structure Invocation where
  json : Bool := false
  graphs : Option String := none
  command : Option Command := none
  deriving DecidableEq

/-! ## The grammar -/

/-- The name of a command. -/
inductive CommandName where
  | init
  | query
  | repl
  | graphs
  | kinds
  deriving DecidableEq

/-- The command that goes by a name, written exactly so. -/
def CommandName.ofText? (text : String) : Option CommandName :=
  if text = "init" then some .init
  else if text = "query" then some .query
  else if text = "repl" then some .repl
  else if text = "graphs" then some .graphs
  else if text = "kinds" then some .kinds
  else none

/-- The word that asks for help on the commands named behind it. -/
def helpWord : String := "help"

/-- Where in a command line an argument stands: before the command, or behind the name of one. -/
inductive Level where
  | program
  | command (name : CommandName)
  deriving DecidableEq

/-- An option that stands alone. -/
inductive Flag where
  | help
  | version
  | json
  | quiet
  | example
  | perGraph
  deriving DecidableEq

/-- An option that is followed by a value. -/
inductive Setting where
  | graphs
  | timeout
  deriving DecidableEq

/-- The option that goes by a long name at a level. -/
def Level.option? (level : Level) (name : String) : Option (Flag ⊕ Setting) :=
  if name = "help" then some (.inl .help)
  else if name = "version" then some (.inl .version)
  else if name = "json" then some (.inl .json)
  else if name = "graphs" then some (.inr .graphs)
  else
    match level with
    | .command .init =>
      if name = "example" then some (.inl .example)
      else if name = "quiet" then some (.inl .quiet)
      else none
    | .command .query =>
      if name = "timeout-ms" then some (.inr .timeout)
      else if name = "per-graph" then some (.inl .perGraph)
      else none
    | .command .repl =>
      if name = "timeout-ms" then some (.inr .timeout)
      else if name = "quiet" then some (.inl .quiet)
      else none
    | _ => none

/-- The flag that goes by a letter at a level. -/
def Level.flag? (level : Level) (letter : Char) : Option Flag :=
  if letter = 'h' then some .help
  else if letter = 'V' then some .version
  else if letter = 'q' then
    match level with
    | .command .init | .command .repl => some .quiet
    | _ => none
  else none

/-! ## What can be wrong -/

/-- The argument that a value was read for. -/
inductive Slot where
  | kind
  | timeout

/-- The argument as messages show it. -/
def Slot.text : Slot → String
  | .kind => "<KIND>"
  | .timeout => "--timeout-ms <TIMEOUT_MS>"

/-- Why a command line does not ask for anything that can be done, or only for information. An
option that lacks its value and an empty path are both a `missingValue`. -/
inductive UsageError where
  | help
  | version
  | unknownArgument
  | unknownCommand
  | repeatedOption
  | missingValue
  | unexpectedValue
  | missingKind
  | badValue (slot : Slot) (value : String) (error : ValueError)

/-- What a terminal is sent when a value is refused. -/
def refusalText (slot : Slot) (value : String) (error : ValueError) : String :=
  let title := Text.standOut "error:"
  let value := Text.standOut value
  let slot := Text.standOut slot.text
  let help := Text.standOut "--help"
  s!"{title} invalid value '{value}' for '{slot}': {error.message}\n\n" ++
    s!"For more information, try '{help}'.\n"

/-- The message about a refused value; others have none of their own. It is the first line of
what shows on a terminal, so that escape sequences in the value count there and may swallow
line breaks. -/
def UsageError.message? : UsageError → Option String
  | .badValue slot value error =>
    some (Text.firstLine (Text.visible (refusalText slot value error)))
  | _ => none

end BindingGraph.Console
