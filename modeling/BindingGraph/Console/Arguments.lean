import BindingGraph.Console.Invocation

/-!
# Reading a command line

Arguments are taken one at a time. A value that has been read stays pending and is checked when the
next option or another argument follows, or at the end: so the first of two faults is found first,
except that an argument no level knows is refused before a pending value is looked at. Behind `--`
nothing is an option or the name of a command. The options of a command count before those of the
program, and the value pending before the name of a command is checked after the command's own
arguments.
-/

namespace BindingGraph.Console

/-- A value that waits to be checked. -/
inductive Pending where
  | setting (setting : Setting) (value : Option String)
  | kind (text : String)
  | parameter (text : String)

/-- What the arguments at one level have said so far: `pastKind` once the kind has been passed,
checked or not, and `plain` where those that follow are neither options nor commands. -/
structure Progress where
  flags : List Flag := []
  graphs : Option String := none
  timeoutMillis : Option Nat := none
  kind : Option QueryKind := none
  parameters : List String := []
  pending : Option Pending := none
  pastKind : Bool := false
  plain : Bool := false

namespace Progress

/-! ## Pending values -/

/-- Take the value of an option. -/
def assign (p : Progress) (setting : Setting) (value : String) : Except UsageError Progress :=
  match setting with
  | .graphs =>
    if p.graphs.isSome then .error .repeatedOption
    else if value = "" then .error .missingValue
    else .ok { p with graphs := some value }
  | .timeout =>
    if p.timeoutMillis.isSome then .error .repeatedOption
    else
      match readMillis value with
      | .ok millis => .ok { p with timeoutMillis := some millis }
      | .error error => .error (.badValue .timeout value error)

/-- Check the pending value. -/
def settle (p : Progress) : Except UsageError Progress :=
  let settled := { p with pending := none }
  match p.pending with
  | none => .ok settled
  | some (.setting _ none) => .error .missingValue
  | some (.setting setting (some value)) => settled.assign setting value
  | some (.kind text) =>
    match readKind text with
    | .ok kind => .ok { settled with kind := some kind }
    | .error error => .error (.badValue .kind text error)
  | some (.parameter text) => .ok { settled with parameters := p.parameters ++ [text] }

/-- The option that the next argument is the value of, unless it is an option itself. -/
def awaiting? (p : Progress) : Option Setting :=
  match p.pending with
  | some (.setting setting none) => some setting
  | _ => none

/-! ## Options -/

/-- Take a flag. -/
def raise (p : Progress) (flag : Flag) : Except UsageError Progress := do
  let p ← p.settle
  match flag with
  | .help => .error .help
  | .version => .error .version
  | flag =>
    if flag ∈ p.flags then .error .repeatedOption
    else .ok { p with flags := flag :: p.flags }

/-- Take an option with a long name and the text behind its equals sign, if there is one. -/
def takeLong (p : Progress) (level : Level) (name : String) (attached : Option String) :
    Except UsageError Progress :=
  match level.option? name, attached with
  -- What is wrong with the option itself comes before what is wrong with the pending value.
  | none, _ => .error .unknownArgument
  | some (.inl _), some _ => .error .unexpectedValue
  | some (.inl flag), none => p.raise flag
  | some (.inr setting), some value => do (← p.settle).assign setting value
  | some (.inr setting), none => do
    return { (← p.settle) with pending := some (.setting setting none) }

/-- Take the letters of an argument that holds flags by their letters. -/
def takeLetters (p : Progress) (level : Level) : List Char → Except UsageError Progress
  | [] => .ok p
  | letter :: letters =>
    match level.flag? letter with
    | some flag => do (← p.raise flag).takeLetters level letters
    | none => .error .unknownArgument

/-! ## Other arguments -/

/-- The name and the attached value of a long option. -/
def splitLong (cs : List Char) : String × Option String :=
  let name := String.ofList (cs.takeWhile (· != '='))
  match cs.dropWhile (· != '=') with
  | [] => (name, none)
  | _ :: value => (name, some (String.ofList value))

/-- Take an argument that is not an option. -/
def takePlain (p : Progress) (level : Level) (text : String) : Except UsageError Progress :=
  match level with
  | .program =>
    -- A command that stands behind two dashes is not taken for one.
    if p.plain && (text == helpWord || (CommandName.ofText? text).isSome) then
      .error .unknownArgument
    else .error .unknownCommand
  | .command .query => do
    let p ← p.settle
    if p.pastKind then return { p with pending := some (.parameter text) }
    else return { p with pending := some (.kind text), pastKind := true }
  | .command _ => .error .unknownArgument

/-- Take an argument that is not the name of a command. -/
def take (p : Progress) (level : Level) (argument : String) : Except UsageError Progress :=
  if p.plain then p.takePlain level argument
  else
    match argument.toList with
    | ['-', '-'] => .ok { p with plain := true }
    | '-' :: '-' :: cs =>
      let (name, attached) := splitLong cs
      p.takeLong level name attached
    | '-' :: c :: cs => p.takeLetters level (c :: cs)
    | _ =>
      match p.awaiting? with
      | some setting => .ok { p with pending := some (.setting setting (some argument)) }
      | none => p.takePlain level argument

/-- Take all arguments of a command. -/
def takeAll (p : Progress) (level : Level) : List String → Except UsageError Progress
  | [] => p.settle
  | argument :: arguments => do (← p.take level argument).takeAll level arguments

/-! ## Commands -/

/-- The command with the arguments that have been read for it. -/
def command (p : Progress) : CommandName → Except UsageError Command
  | .init => .ok (.init (.example ∈ p.flags) (.quiet ∈ p.flags))
  | .query =>
    match p.kind with
    | some kind => .ok (.query kind p.parameters p.timeoutMillis (.perGraph ∈ p.flags))
    | none => .error .missingKind
  | .repl => .ok (.repl p.timeoutMillis (.quiet ∈ p.flags))
  | .graphs => .ok .graphs
  | .kinds => .ok .kinds

/-- What the arguments behind the word for help ask for: at most one command can be named. -/
def helpOn : List String → UsageError
  | [] => .help
  | [name] =>
    if name == helpWord || (CommandName.ofText? name).isSome then .help else .unknownCommand
  | _ => .unknownCommand

/-- Take the arguments of the program, up to the name of a command, and then those of
the command. -/
def invocation (p : Progress) : List String → Except UsageError Invocation
  | [] => do
    let p ← p.settle
    return { json := .json ∈ p.flags, graphs := p.graphs }
  | argument :: arguments => do
    if !p.plain && p.awaiting?.isNone then
      if argument = helpWord then throw (helpOn arguments)
      if let some name := CommandName.ofText? argument then
        -- The pending value of the program is checked last.
        let own ← ({} : Progress).takeAll (.command name) arguments
        let command ← own.command name
        let p ← p.settle
        return { json := .json ∈ p.flags ∨ .json ∈ own.flags
                 graphs := own.graphs <|> p.graphs
                 command := some command }
    (← p.take .program argument).invocation arguments

end Progress

/-- The invocation that a list of arguments expresses. -/
def Invocation.ofArguments (arguments : List String) : Except UsageError Invocation :=
  ({} : Progress).invocation arguments

end BindingGraph.Console
