import BindingGraph.Console.Run
import BindingGraph.Proofs.Files.Steps

/-!
# What a run comes to

A run is what its command does, with the reason of a failure at the end (`Invocation.run_command`).
A command on graphs is its use of them if they can be opened, and otherwise fails for the reason why
they cannot (`withGraphs_run_ok`, `withGraphs_run_error`).
-/

namespace BindingGraph.Console

variable {directory : FilePath} {graphs : Option String} {timeoutMillis : Option Nat}
  {use : Workspace.Opened → Outcome} {files files' : FileTree}

theorem withGraphs_run_ok {opened : Workspace.Opened}
    (h : (openGraphs directory graphs timeoutMillis).run files = (.ok opened, files')) :
    (withGraphs directory graphs timeoutMillis use).run files = (use opened, files') :=
  run_result_bind h

theorem withGraphs_run_error {error : Workspace.Error}
    (h : (openGraphs directory graphs timeoutMillis).run files = (.error error, files')) :
    (withGraphs directory graphs timeoutMillis use).run files =
      ({ failure := some (.workspace error) }, files') :=
  run_result_bind h

/-- A run is what its command does in the current directory. -/
theorem Invocation.run_command (surroundings : Surroundings) (json : Bool) (command : Command)
    {outcome : Outcome}
    (h : (command.perform (presentation ⟨json, graphs, some command⟩ surroundings)
      (pathOfLocation files.current) graphs surroundings.input).run files = (outcome, files')) :
    (Invocation.run surroundings ⟨json, graphs, some command⟩).run files =
      (outcome.result (presentation ⟨json, graphs, some command⟩ surroundings), files') := by
  show (Outcome.result _ ((command.perform _ _ graphs surroundings.input).run files).1,
    ((command.perform _ _ graphs surroundings.input).run files).2) = _
  rw [h]

end BindingGraph.Console
