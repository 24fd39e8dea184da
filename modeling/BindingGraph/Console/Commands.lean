import BindingGraph.Console.Invocation
import BindingGraph.Report.Answers
import BindingGraph.Report.Listing
import BindingGraph.Workspace.Opened

/-!
# What each command does

A command prints and possibly fails; what it has printed before stays. Queries are answered by the
catalog of a workspace. A session reads one query per line and goes on after those that fail: what
it prints is what its lines print one after the other.
-/

namespace BindingGraph.Console

open Report (Output Presentation)

/-- Why a command fails; with `file` it is the working directory or the input that cannot be
read. -/
inductive Failure where
  | workspace (error : Workspace.Error)
  | line (error : Query.LineError)
  | query (error : QueryError)
  | file (error : FileError)

/-- The failure in words. -/
def Failure.message : Failure → String
  | .workspace error => error.message
  | .line error => error.message
  | .query error => error.message
  | .file error => error.message

/-- What a command has printed, and why it has failed if it has. -/
structure Outcome where
  output : Output := {}
  failure : Option Failure := none

/-- Print something before what follows. -/
def Outcome.after (output : Output) (outcome : Outcome) : Outcome :=
  { outcome with output := output ++ outcome.output }

/-! ## Queries -/

/-- Answer one query. -/
def answerQuery (view : Presentation) (catalog : Catalog) (kind : QueryKind)
    (parameters : List String) (perGraph : Bool) : Outcome :=
  match Query.ofParameters kind parameters with
  | .error error => { failure := some (.query error) }
  | .ok query =>
    if perGraph then { output := Report.outcomes view (catalog.outcomes query) }
    else
      match catalog.execute query with
      | .ok results => { output := Report.results view query results }
      | .error error => { failure := some (.query error) }

/-! ## Sessions -/

/-- The words that end a session, in any ASCII case. -/
def quitWords : List String := ["quit", "exit"]

/-- Whether a line ends a session. -/
def isQuit (line : String) : Bool := quitWords.any fun word => Text.sameUpToCase line word

/-- Whether a session shows where input is expected. -/
def prompts (view : Presentation) (quiet : Bool) : Bool := !quiet && !view.json

/-- What is printed before each line is read. -/
def prompt (shown : Bool) : Output := if shown then { err := "> " } else {}

/-- What the query on a line prints, or the reason why it fails. -/
def answerLine (view : Presentation) (catalog : Catalog) (line : String) : Output :=
  match Query.ofLine line with
  | .error error => Report.failure view error.message
  | .ok query =>
    match catalog.execute query with
    | .ok results => Report.results view query results
    | .error error => Report.failure view error.message

/-- What a session prints for one line of input: nothing for a blank one, and `none` if the line
ends the session. Input that is not text is a failure. -/
def turn (view : Presentation) (catalog : Catalog) :
    Except Text.Utf8Fault String → Except Failure (Option Output)
  | .error fault => .error (.file (.badLine fault))
  | .ok line =>
    let line := Text.trim line
    if line = "" then .ok (some {})
    else if isQuit line then .ok none
    else .ok (some (answerLine view catalog line))

/-- A session on lines of input, up to the first that ends it or is not text. -/
def session (view : Presentation) (catalog : Catalog) (prompting : Bool) :
    List (Except Text.Utf8Fault String) → Outcome
  | [] => { output := prompt prompting }
  | line :: lines =>
    match turn view catalog line with
    | .error failure => { output := prompt prompting, failure := some failure }
    | .ok none => { output := prompt prompting }
    | .ok (some output) =>
      (session view catalog prompting lines).after (prompt prompting ++ output)

/-! ## Other commands -/

/-- What making a workspace prints at the end. -/
def createdLines (view : Presentation) (created : Workspace.Created) : List String :=
  [view.paint .success s!"Initialized tangle in {created.marker.text}",
    s!"  Config: {created.configuration.text}", s!"  Graphs: {created.graphs.text}"] ++
    created.example?.toList.map fun path => s!"  Example graph: {path.text}"

/-- Make a workspace in a directory. -/
def makeWorkspace (view : Presentation) (directory : FilePath) (withExample quiet : Bool) :
    StateM FileTree Outcome := do
  -- This line is printed before anything can fail.
  let started : Output := if quiet then {} else .lines ["Initializing tangle workspace..."]
  match ← (Workspace.create directory withExample).run with
  | .ok created =>
    return ({ output := if quiet then {} else .lines (createdLines view created) } :
      Outcome).after started
  | .error error => return { output := started, failure := some (.workspace error) }

/-- What is printed when no command is given. -/
def greeting : Output :=
  .lines ["Tangle binding graph query console", "Use --help for more information"]

/-- Open the workspace of a directory, or the graphs given in its place, with the time
limit given. -/
def openGraphs (directory : FilePath) (graphs : Option String) (timeoutMillis : Option Nat) :
    Workspace.Action Workspace.Opened := do
  return (← Workspace.Opened.ofDirectory directory (graphs.map .ofText)).withTimeout timeoutMillis

/-- Use the graphs that are opened. -/
def withGraphs (directory : FilePath) (graphs : Option String) (timeoutMillis : Option Nat)
    (use : Workspace.Opened → Outcome) : StateM FileTree Outcome := do
  match ← (openGraphs directory graphs timeoutMillis).run with
  | .ok opened => return use opened
  | .error error => return { failure := some (.workspace error) }

/-- Carry out a command in a directory, with the given input. -/
def Command.perform (view : Presentation) (directory : FilePath) (graphs : Option String)
    (input : List UInt8) : Command → StateM FileTree Outcome
  | .init example? quiet => makeWorkspace view directory example? quiet
  | .query kind parameters timeoutMillis perGraph =>
    withGraphs directory graphs timeoutMillis fun opened =>
      answerQuery view opened.catalog kind parameters perGraph
  | .repl timeoutMillis quiet =>
    withGraphs directory graphs timeoutMillis fun opened =>
      session view opened.catalog (prompts view quiet) (Text.decodeLines input)
  | .graphs =>
    withGraphs directory graphs none fun opened =>
      { output := Report.graphs view opened.catalog.summaries opened.warnings }
  | .kinds => return { output := Report.kinds view }

end BindingGraph.Console
