import BindingGraph.Proofs.Console.Run
import BindingGraph.Proofs.Text.Lines
import BindingGraph.Proofs.Workspace.Loading
import Mathlib.Data.List.TakeWhile

/-!
# Sessions line by line

A session prints, line after line, what each of its lines prints by itself, and it succeeds whatever
queries fail (`Invocation.run_repl`). A turn knows nothing of the turns before it (`turn_eq`), so
the whole session is one induction over its lines (`session_eq`). Where input is expected a session
may show so: before each line that it reads, and before the end of input if no line has ended it.
-/

namespace BindingGraph.Console

open Report (Output Presentation)

variable {view : Presentation} {catalog : Catalog}

/-! ## One line -/

/-- What a session prints whose only line this is. -/
def alone (view : Presentation) (catalog : Catalog) (line : String) : Output :=
  (session view catalog false [.ok line]).output

/-- Whether a line as it is typed ends a session. -/
def ends (line : String) : Bool := isQuit (Text.trim line)

theorem append_empty (output : Output) : output ++ {} = output := by
  show Output.mk (output.out ++ "") (output.err ++ "") = output
  rw [String.append_empty, String.append_empty]

theorem empty_append (output : Output) : {} ++ output = output := by
  show Output.mk ("" ++ output.out) ("" ++ output.err) = output
  rw [String.empty_append, String.empty_append]

theorem ends_of_blank {line : String} (h : Text.trim line = "") : ends line = false := by
  rw [ends, h]
  decide

theorem session_cons_none {prompting : Bool} {line : Except Text.Utf8Fault String}
    {lines : List (Except Text.Utf8Fault String)} (h : turn view catalog line = .ok none) :
    session view catalog prompting (line :: lines) = { output := prompt prompting } := by
  rw [session, h]

theorem session_cons_some {prompting : Bool} {line : Except Text.Utf8Fault String}
    {lines : List (Except Text.Utf8Fault String)} {output : Output}
    (h : turn view catalog line = .ok (some output)) :
    session view catalog prompting (line :: lines) =
      (session view catalog prompting lines).after (prompt prompting ++ output) := by
  rw [session, h]

theorem alone_eq (view : Presentation) (catalog : Catalog) (line : String) :
    alone view catalog line =
      if Text.trim line = "" ∨ ends line then {} else answerLine view catalog (Text.trim line) := by
  have halone {output : Output} (h : turn view catalog (.ok line) = .ok (some output)) :
      alone view catalog line = output := by
    rw [alone, session_cons_some h]
    show ({} ++ output) ++ {} = output
    rw [append_empty, empty_append]
  by_cases hblank : Text.trim line = ""
  · rw [if_pos (Or.inl hblank)]
    exact halone (by simp [turn, hblank])
  · by_cases hends : ends line = true
    · have hquit : isQuit (Text.trim line) = true := hends
      rw [if_pos (Or.inr hends), alone, session_cons_none (by simp [turn, hblank, hquit])]
      rfl
    · have hquit : ¬ isQuit (Text.trim line) = true := hends
      rw [if_neg (not_or.mpr ⟨hblank, hends⟩)]
      exact halone (by simp [turn, hblank, hquit])

/-- A turn ends the session or prints what its line prints alone. -/
theorem turn_eq (view : Presentation) (catalog : Catalog) (line : String) :
    turn view catalog (.ok line) =
      .ok (if ends line then none else some (alone view catalog line)) := by
  rw [alone_eq, turn]
  by_cases hblank : Text.trim line = ""
  · simp [hblank, ends_of_blank hblank]
  · by_cases hquit : isQuit (Text.trim line) = true
    · simp [hblank, ends, hquit]
    · simp [hblank, ends, hquit]

theorem alone_of_ends {line : String} (h : ends line) : alone view catalog line = {} := by
  rw [alone_eq, if_pos (Or.inr h)]

theorem alone_of_blank {line : String} (h : Text.trim line = "") :
    alone view catalog line = {} := by
  rw [alone_eq, if_pos (Or.inl h)]

/-- Blank characters around a line make no difference. -/
theorem alone_trim (line : String) :
    alone view catalog (Text.trim line) = alone view catalog line := by
  have htrim : Text.trim (Text.trim line) = Text.trim line := (Text.isTrimmed_trim line).trim_eq
  rw [alone_eq, alone_eq, ends, ends, htrim]

/-! ## All lines -/

/-- The lines before the first that ends the session. -/
def heard (lines : List String) : List String := lines.takeWhile fun line => !ends line

/-- The lines that a session reads: those that it hears, and the one that ends it. -/
def read (lines : List String) : List String :=
  heard lines ++ (lines.dropWhile fun line => !ends line).take 1

/-- What a session is asked: the lines that it hears, trimmed, except the blank ones. -/
def asked (lines : List String) : List String := ((heard lines).map Text.trim).filter (· ≠ "")

theorem read_cons (line : String) (lines : List String) :
    read (line :: lines) = if ends line then [line] else line :: read lines := by
  by_cases hends : ends line = true
  · simp [read, heard, hends]
  · simp [read, heard, hends]

/-- Behind the line that ends a session nothing is read. -/
theorem read_append_cons {before after : List String} {last : String} (h : ends last) :
    read (before ++ last :: after) = read (before ++ [last]) := by
  induction before with
  | nil => simp [read_cons, h]
  | cons line before ih => rw [List.cons_append, List.cons_append, read_cons, read_cons, ih]

/-- What is asked for is answered. -/
theorem alone_of_mem_asked {lines : List String} {line : String} (h : line ∈ asked lines) :
    alone view catalog line = answerLine view catalog line := by
  obtain ⟨hmem, hasked⟩ := List.mem_filter.mp h
  obtain ⟨typed, htyped, rfl⟩ := List.mem_map.mp hmem
  have htrim : Text.trim (Text.trim typed) = Text.trim typed := (Text.isTrimmed_trim typed).trim_eq
  have hopen : ¬ ends typed = true := by simpa using List.mem_takeWhile_imp htyped
  have hsome : ¬ Text.trim typed = "" := by simpa using hasked
  rw [alone_eq, ends, htrim]
  exact if_neg (not_or.mpr ⟨hsome, hopen⟩)

/-- What is printed line by line is printed for what is asked. -/
theorem join_read {print : Output → String} (hnothing : print {} = "") (lines : List String) :
    String.join ((read lines).map fun line => print (alone view catalog line)) =
      String.join ((asked lines).map fun line => print (alone view catalog line)) := by
  induction lines with
  | nil => rfl
  | cons line lines ih =>
    rw [read_cons]
    by_cases hends : ends line = true
    · -- The line that ends the session prints nothing.
      simp [asked, heard, hends, alone_of_ends hends, hnothing]
    · by_cases hblank : Text.trim line = ""
      · have hasked : asked (line :: lines) = asked lines := by simp [asked, heard, hends, hblank]
        rw [if_neg hends, List.map_cons, String.join_cons, ih, alone_of_blank hblank, hnothing,
          hasked, String.empty_append]
      · have hasked : asked (line :: lines) = Text.trim line :: asked lines := by
          simp [asked, heard, hends, hblank]
        rw [if_neg hends, List.map_cons, String.join_cons, ih, hasked, List.map_cons,
          String.join_cons, alone_trim]

/-- **A session is its lines one by one**, with prompts before those that are read and before the
end of input. -/
theorem session_eq (view : Presentation) (catalog : Catalog) (prompting : Bool)
    (lines : List String) :
    session view catalog prompting (lines.map .ok) =
      { output :=
          { out := String.join ((read lines).map fun line => (alone view catalog line).out)
            err := String.join ((read lines).map fun line =>
                (prompt prompting).err ++ (alone view catalog line).err) ++
              if lines.any ends then "" else (prompt prompting).err } } := by
  have hprompt : (prompt prompting).out = "" := by cases prompting <;> rfl
  induction lines with
  | nil =>
    show Outcome.mk (prompt prompting) none = _
    cases prompting <;> rfl
  | cons line lines ih =>
    have hturn := turn_eq view catalog line
    rw [List.map_cons, read_cons, List.any_cons]
    by_cases hends : ends line = true
    · rw [if_pos hends] at hturn
      rw [session_cons_none hturn, if_pos hends, hends]
      cases prompting <;> simp [alone_of_ends hends, prompt, String.join_cons]
    · rw [if_neg hends] at hturn
      rw [session_cons_some hturn, ih, if_neg hends, Bool.eq_false_iff.mpr hends, Bool.false_or]
      show Outcome.mk (Output.mk _ _) none = _
      simp [hprompt, String.join_cons, String.append_assoc]

/-! ## The command -/

/-- **A session as a command.** Once its graphs are loaded it succeeds on every text. It answers
what it is asked, each line as if it were alone; on the other stream it also shows where input is
expected, once for every line that it reads and once more if none has ended it; and what stands
behind a line that ends it has no effect. -/
theorem Invocation.run_repl (surroundings : Surroundings) (json quiet : Bool)
    (graphs : Option String) (timeoutMillis : Option Nat) (text : String) (files files' : FileTree)
    (opened : Workspace.Opened)
    (h : (openGraphs (pathOfLocation files.current) graphs timeoutMillis).run files =
      (.ok opened, files')) :
    let invocation : Invocation := ⟨json, graphs, some (.repl timeoutMillis quiet)⟩
    let view := invocation.presentation surroundings
    let run (text : String) :=
      (invocation.run { surroundings with input := Text.encodeUtf8 text }).run files
    let alone := alone view opened.catalog
    let shown := if quiet || json then "" else "> "
    let lines := Text.lines text
    run text = (⟨true,
      { out := String.join ((asked lines).map fun line => (alone line).out)
        err := String.join ((read lines).map fun line => shown ++ (alone line).err) ++
          if lines.any ends then "" else shown }⟩, files') ∧
    String.join ((read lines).map fun line => (alone line).err) =
      String.join ((asked lines).map fun line => (alone line).err) ∧
    (∀ line ∈ asked lines, alone line = answerLine view opened.catalog line) ∧
    ∀ before last after text', ends last → lines = before ++ last :: after →
      Text.lines text' = before ++ [last] → run text = run text' := by
  intro invocation view run alone shown lines
  have hshown : (prompt (prompts view quiet)).err = shown := by
    cases quiet <;> cases json <;> rfl
  have hrun (text : String) : run text = (⟨true,
      { out := String.join ((asked (Text.lines text)).map fun line => (alone line).out)
        err := String.join ((read (Text.lines text)).map fun line => shown ++ (alone line).err) ++
          if (Text.lines text).any ends then "" else shown }⟩, files') := by
    have hsession := session_eq view opened.catalog (prompts view quiet) (Text.lines text)
    rw [← Text.decodeLines_encodeUtf8, hshown, join_read rfl] at hsession
    have hcommand := run_command { surroundings with input := Text.encodeUtf8 text } json
      (.repl timeoutMillis quiet) (withGraphs_run_ok h)
    rw [show run text = _ from hcommand]
    show ((session view opened.catalog (prompts view quiet) _).result view, files') = _
    rw [hsession]
    rfl
  refine ⟨hrun text, join_read rfl lines, ?_, ?_⟩
  · intro line hline
    exact alone_of_mem_asked hline
  · intro before last after text' hlast htext htext'
    have hread : read (Text.lines text) = read (Text.lines text') := by
      rw [show Text.lines text = before ++ last :: after from htext, htext', read_append_cons hlast]
    have hany : (Text.lines text).any ends = (Text.lines text').any ends := by
      rw [show Text.lines text = before ++ last :: after from htext, htext']
      simp [hlast]
    rw [hrun, hrun, ← join_read rfl, ← join_read rfl, hread, hany]

/-! ## A session that is ended -/

/-- A tree in which there is one graph file and nothing else. -/
def oneGraph : FileTree := ⟨[(["g.jsonl"], .file (Text.encodeUtf8 "[\"a\",[\"b\"]]\n"))], []⟩

/-- What there is to load in it. -/
def oneGraphOpened : Workspace.Opened :=
  ⟨{ graphs := [⟨"g", (LoadedGraph.ofLines ["[\"a\",[\"b\"]]"]).graph⟩] },
    pathOfLocation ["g.jsonl"], []⟩

theorem openGraphs_oneGraph :
    (openGraphs (pathOfLocation oneGraph.current) (some "g.jsonl") none).run oneGraph =
      (.ok oneGraphOpened, oneGraph) := by
  have htree : oneGraph.IsTree := by decide +kernel
  have hroot : Workspace.findRoot? oneGraph (pathOfLocation []) = none := by
    have hnot : Workspace.isRoot oneGraph (pathOfLocation []) = false := by
      rw [Bool.eq_false_iff, ne_eq, Workspace.isRoot_pathOfLocation htree rfl]
      decide
    show [pathOfLocation []].find? (Workspace.isRoot oneGraph) = none
    rw [List.find?_singleton, hnot]
    rfl
  have hpath : (pathOfLocation []).join (.ofText "g.jsonl") = pathOfLocation ["g.jsonl"] :=
    child_pathOfLocation (by simp) (by decide)
  have hentry : oneGraph.entryAt (pathOfLocation ["g.jsonl"]) =
      .ok (.file (Text.encodeUtf8 "[\"a\",[\"b\"]]\n")) := htree.entryAt_eq rfl (by decide)
  have hlines : Text.linesOfBytes (Text.encodeUtf8 "[\"a\",[\"b\"]]\n") =
      .ok ["[\"a\",[\"b\"]]"] := by
    decide +kernel
  have hload := Workspace.Opened.load_run {} (Workspace.loadFrom_file hentry hlines)
  have hname : Workspace.graphName (pathOfLocation ["g.jsonl"]) = "g" := by decide +kernel
  have hwarnings : (LoadedGraph.ofLines ["[\"a\",[\"b\"]]"]).warnings = [] := by decide +kernel
  rw [hname, Workspace.LoadedGraphs.single, hwarnings] at hload
  have hopened : (Workspace.Opened.ofDirectory (pathOfLocation []) (some (.ofText "g.jsonl"))).run
      oneGraph = (.ok oneGraphOpened, oneGraph) := by
    rw [Workspace.Opened.ofDirectory, run_bind_of_ok (Workspace.Opened.source_given hroot _), hpath]
    exact hload
  exact run_bind_of_ok hopened

/-- Two queries fail, a line is blank, and the session is ended in the middle of its input. -/
theorem Invocation.run_repl_ended :
    let text := "deps c\n\r\n rdeps \u00a0b\nb\n eXit\t\ndeps a\n"
    let invocation : Invocation := ⟨false, some "g.jsonl", some (.repl none false)⟩
    (openGraphs (pathOfLocation oneGraph.current) (some "g.jsonl") none).run oneGraph =
      (.ok oneGraphOpened, oneGraph) ∧
    asked (Text.lines text) = ["deps c", "rdeps \u00a0b", "b"] ∧
    (invocation.run { noColor := true, input := Text.encodeUtf8 text }).run oneGraph =
      (⟨true, ⟨"a\n",
        "> Execution failed. Reason: Binding with name c contains a typo and not found " ++
        "in the graph. Maybe you meant a, b?\n" ++
        "> > > Execution failed. Reason: Query with name 'b' isn't implemented.\n> "⟩⟩,
        oneGraph) := by
  intro text invocation
  obtain ⟨hrun, -⟩ := run_repl { noColor := true } false false (some "g.jsonl") none text oneGraph
    oneGraph oneGraphOpened openGraphs_oneGraph
  refine ⟨openGraphs_oneGraph, by decide +kernel, hrun.trans ?_⟩
  exact congrArg (fun output => (Result.mk true output, oneGraph)) (by decide +kernel)

end BindingGraph.Console
