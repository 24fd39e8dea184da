import BindingGraph.Console.Invocation

/-!
# Help

The texts shown when a command line asks for information or cannot be understood.
-/

namespace BindingGraph.Console

/-- How the program is used. -/
def usageText : String :=
  "\n".intercalate
    ["Query dependency-injection binding graphs",
     "",
     "Usage: tangle [--json] [--graphs <PATH>] [COMMAND]",
     "",
     "Commands:",
     "  init [--example] [-q|--quiet]",
     "      Make a workspace, with a graph to try queries on if wanted",
     "  query [--timeout-ms <TIMEOUT_MS>] [--per-graph] <KIND> [PARAMS]...",
     "      Run one query on every graph",
     "  repl [--timeout-ms <TIMEOUT_MS>] [-q|--quiet]",
     "      Read queries from the input, one to a line",
     "  graphs",
     "      List the graphs",
     "  kinds",
     "      List the kinds of query",
     "",
     "Options:",
     "  --json           Answer with JSON documents",
     "  --graphs <PATH>  A graph file or a directory of them, instead of the workspace's graphs",
     "  -h, --help       Show this text",
     "  -V, --version    Show the version"]

/-- The name of the program with its version. -/
def versionText : String := "tangle 0.1.0"

/-- Whether nothing is wrong and only information is asked for. -/
def UsageError.isRequest : UsageError → Bool
  | .help | .version => true
  | _ => false

/-- What is shown instead of carrying out a command. -/
def UsageError.text : UsageError → String
  | .help => usageText
  | .version => versionText
  | .unknownArgument => "error: unexpected argument"
  | .unknownCommand => "error: unrecognized subcommand"
  | .repeatedOption => "error: an option is given more than once"
  | .missingValue => "error: an option needs a value"
  | .unexpectedValue => "error: an option takes no value"
  | .missingKind => "error: a query needs its kind"
  | .badValue slot value error =>
    (UsageError.badValue slot value error).message?.getD "error: invalid value"

end BindingGraph.Console
