import BindingGraph.Proofs.Console.Documents
import BindingGraph.Proofs.Console.Session
import BindingGraph.Proofs.Query.Line
import BindingGraph.Proofs.Text.SplitLines

/-!
# A query as a command and as a line

A query can be asked by a command of its own or on a line of a session. If its parameters
are words, both print the same, and the command succeeds exactly if the line shows results
and no failure (`Invocation.run_query_as_line`). The line is read as one line however it
ends (`lines_append_ending`), it never ends the session (`isQuit_name_append`), and its
words are the kind and the parameters again (`ofLine_queryLine`). Results never look like a
failure (`results_ne_failure`).
-/

namespace BindingGraph

/-! ## Lines of words -/

namespace Text

variable {words : List String} {word : String}

theorem IsWord.isTrimmed (h : IsWord word) : IsTrimmed word where
  first := fun ch hch => h.2 ch (List.mem_of_mem_head? hch)
  last := fun ch hch => h.2 ch (List.mem_of_getLast? hch)

theorem IsTrimmed.append {front back : String} (hfront : IsTrimmed front) (hback : IsTrimmed back)
    (hne : front ≠ "") (hne' : back ≠ "") (between : String) :
    IsTrimmed (front ++ between ++ back) := by
  have hfirst : front.toList ≠ [] := fun hnil => hne (String.toList_eq_nil_iff.mp hnil)
  have hlast : back.toList ≠ [] := fun hnil => hne' (String.toList_eq_nil_iff.mp hnil)
  constructor
  · intro ch hch
    rw [String.append_assoc, String.toList_append, List.head?_append_of_ne_nil _ hfirst] at hch
    exact hfront.first ch hch
  · intro ch hch
    rw [String.toList_append, List.getLast?_append_of_ne_nil _ hlast] at hch
    exact hback.last ch hch

theorem intercalate_ne_empty (hword : IsWord word) (words : List String) :
    " ".intercalate (word :: words) ≠ "" := by
  cases words with
  | nil =>
    rw [String.intercalate_singleton]
    exact hword.1
  | cons next words =>
    rw [String.intercalate_cons_cons]
    simp

/-- Words with spaces between them have none around them. -/
theorem isTrimmed_intercalate (h : ∀ other ∈ word :: words, IsWord other) :
    IsTrimmed (" ".intercalate (word :: words)) := by
  induction words generalizing word with
  | nil =>
    rw [String.intercalate_singleton]
    exact (h word List.mem_cons_self).isTrimmed
  | cons next words ih =>
    have hword := h word List.mem_cons_self
    have hrest := fun other hother => h other (List.mem_cons_of_mem _ hother)
    rw [String.intercalate_cons_cons]
    exact hword.isTrimmed.append (ih hrest) hword.1
      (intercalate_ne_empty (hrest next List.mem_cons_self) words) " "

theorem isLine_intercalate (h : ∀ other ∈ word :: words, IsWord other) :
    IsLine (" ".intercalate (word :: words)) where
  no_lineFeed := by
    intro hmem
    rcases mem_intercalate hmem with hspace | ⟨other, hother, hmem⟩
    · exact absurd hspace (by decide)
    · exact absurd ((h other hother).2 _ hmem) (by decide)
  no_carriageReturn := by
    intro hlast
    exact absurd ((isTrimmed_intercalate h).last _ hlast) (by decide)

/-! ## The end of a line -/

/-- How the last line of a text may end. -/
def lineEndings : List String := ["", "\n", "\r\n"]

theorem linesOfParts_end (part : List Char) : linesOfParts [part, []] = [withoutReturn part] := by
  rw [linesOfParts_cons (List.cons_ne_nil _ _)]
  rfl

/-- A single line is read as one, however it ends. -/
theorem lines_append_ending {line ending : String} (hline : IsLine line) (hne : line ≠ "")
    (hending : ending ∈ lineEndings) : lines (line ++ ending) = [line] := by
  have hfeed := hline.no_lineFeed
  have hkept : withoutReturn line.toList = line.toList := if_neg hline.no_carriageReturn
  have hchars : line.toList ≠ [] := fun hnil => hne (String.toList_eq_nil_iff.mp hnil)
  have hparts : linesOfParts ((line ++ ending).toList.splitOn '\n') = [line.toList] := by
    rw [String.toList_append]
    simp only [lineEndings, List.mem_cons, List.not_mem_nil, or_false] at hending
    rcases hending with rfl | rfl | rfl
    · rw [show "".toList = [] from rfl, List.append_nil, List.splitOn_eq_singleton hfeed]
      simp [linesOfParts, Option.filter_some, hchars]
    · rw [show "\n".toList = ['\n'] from rfl, List.splitOn_append_cons_self_of_not_mem hfeed]
      exact (linesOfParts_end _).trans (by rw [hkept])
    · have hreturn : '\n' ∉ line.toList ++ ['\r'] := by simpa using hfeed
      rw [show "\r\n".toList = ['\r'] ++ ['\n'] from rfl, ← List.append_assoc,
        List.splitOn_append_cons_self_of_not_mem hreturn]
      refine (linesOfParts_end _).trans ?_
      simp [withoutReturn]
  rw [lines_eq_splitLines, splitLines, hparts, List.map_singleton, String.ofList_toList]

end Text

/-! ## Results and failures -/

namespace Report

/-- An object starts with the name of its first field. -/
theorem pretty_object_cons (key : String) (value : Json.Document)
    (fields : List (String × Json.Document)) :
    ∃ rest, (Json.Document.object ((key, value) :: fields)).pretty =
      "\x7b" ++ Json.Document.newLine 1 ++ (Json.quote key ++ rest) := by
  simp only [Json.Document.pretty, Json.Document.prettyAt, Json.Document.prettyFields,
    Json.Document.bracket, Nat.zero_add]
  cases Json.Document.prettyFields 1 fields with
  | nil =>
    rw [String.intercalate_singleton]
    exact ⟨_, by simp only [String.append_assoc]; rfl⟩
  | cons next rest =>
    rw [String.intercalate_cons_cons]
    exact ⟨_, by simp only [String.append_assoc]; rfl⟩

/-- Results never look like a failure: they go to another stream, or their document starts in
another way. -/
theorem results_ne_failure (view : Presentation) (query : Query) (found : List String)
    (message : String) : results view query found ≠ failure view message := by
  intro heq
  cases hjson : view.json with
  | true =>
    rw [results, failure, if_pos hjson, if_pos hjson] at heq
    have hout := congrArg Output.out heq
    obtain ⟨rest, hrest⟩ := pretty_object_cons "query" (.string query.text)
      [("kind", query.kind.document), ("results", .strings found)]
    obtain ⟨rest', hrest'⟩ := pretty_object_cons "error" (.string message) []
    rw [out_document, out_document, hrest, hrest'] at hout
    simp only [String.append_assoc, String.append_right_inj] at hout
    -- Behind what both start with, the names of the first fields differ.
    have hkeys := congrArg (·.toList[1]?) hout
    simp [Json.quote, Json.escapeChar] at hkeys
  | false =>
    rw [results, failure, if_neg (Bool.eq_false_iff.mp hjson), if_neg (Bool.eq_false_iff.mp hjson)]
      at heq
    have herr := congrArg (·.err.length) heq
    simp only [Output.lines, String.length_append] at herr
    change 0 = _ + 1 at herr
    omega

end Report

namespace Console

open Report (Output Presentation)

variable {view : Presentation} {catalog : Catalog} {kind : QueryKind} {parameters : List String}

/-! ## The line of a query -/

/-- A kind and parameters as they are typed on a line. -/
def queryLine (kind : QueryKind) (parameters : List String) : String :=
  " ".intercalate (kind.name :: parameters)

theorem queryLine_eq (kind : QueryKind) (parameters : List String) :
    ∃ rest, queryLine kind parameters = kind.name ++ rest := by
  cases parameters with
  | nil => exact ⟨"", by rw [queryLine, String.intercalate_singleton, String.append_empty]⟩
  | cons first parameters =>
    rw [queryLine, String.intercalate_cons_cons, String.append_assoc]
    exact ⟨_, rfl⟩

/-- No word that ends a session starts in the way the name of a kind does. -/
theorem isQuit_name_append (kind : QueryKind) (rest : String) :
    isQuit (kind.name ++ rest) = false := by
  have hshort : 4 ≤ (kind.name.toList.map Char.toLower).length := by cases kind <;> decide
  rw [isQuit, List.any_eq_false]
  intro word hword hsame
  have hletters : (kind.name.toList.map Char.toLower).take 4 =
      (word.toList.map Char.toLower).take 4 := by
    rw [← beq_iff_eq.mp hsame, String.toList_append, List.map_append,
      List.take_append_of_le_length hshort]
  clear hsame
  revert word
  cases kind <;> decide

section Words

variable (hwords : ∀ parameter ∈ parameters, Text.IsWord parameter)
include hwords

theorem isWord_of_mem_queryLine : ∀ word ∈ kind.name :: parameters, Text.IsWord word :=
  List.forall_mem_cons.mpr ⟨kind.isWord_name, hwords⟩

theorem ofLine_queryLine :
    Query.ofLine (queryLine kind parameters) =
      (Query.ofParameters kind parameters).mapError .invalid := by
  rw [queryLine,
    Query.ofLine_of_runs (Text.maximalRuns_intercalate (isWord_of_mem_queryLine hwords)),
    Query.ofWords_of_sameLetters (QueryKind.ofName?_eq_some_iff.mp kind.ofName?_name)]

/-- The line is answered as the command is. -/
theorem answerLine_queryLine :
    answerLine view catalog (queryLine kind parameters) =
      ((answerQuery view catalog kind parameters false).result view).output := by
  rw [answerLine, ofLine_queryLine hwords, answerQuery]
  cases Query.ofParameters kind parameters with
  | error error => exact (empty_append _).symm
  | ok query =>
    dsimp only [Except.mapError]
    rw [if_neg Bool.false_ne_true]
    cases catalog.execute query with
    | error error => exact (empty_append _).symm
    | ok found => rfl

theorem session_queryLine :
    session view catalog false [.ok (queryLine kind parameters)] =
      { output := ((answerQuery view catalog kind parameters false).result view).output } := by
  have htrim : Text.trim (queryLine kind parameters) = queryLine kind parameters :=
    (Text.isTrimmed_intercalate (isWord_of_mem_queryLine hwords)).trim_eq
  have hsome : queryLine kind parameters ≠ "" :=
    Text.intercalate_ne_empty kind.isWord_name parameters
  have hquit : isQuit (queryLine kind parameters) = false := by
    obtain ⟨rest, hrest⟩ := queryLine_eq kind parameters
    rw [hrest, isQuit_name_append]
  have hturn : turn view catalog (.ok (queryLine kind parameters)) =
      .ok (some (answerLine view catalog (queryLine kind parameters))) := by
    simp [turn, htrim, hsome, hquit]
  rw [session_cons_some hturn, answerLine_queryLine hwords]
  show Outcome.mk ({} ++ _ ++ {}) none = _
  rw [append_empty, empty_append]

end Words

/-! ## What a query shows -/

/-- What is printed is results of a query. -/
def ShowsResults (view : Presentation) (output : Output) : Prop :=
  ∃ query found, output = Report.results view query found

/-- What is printed is the reason of a failure. -/
def ShowsFailure (view : Presentation) (output : Output) : Prop :=
  ∃ message, output = Report.failure view message

theorem ShowsResults.not_showsFailure {output : Output} (h : ShowsResults view output) :
    ¬ ShowsFailure view output := by
  obtain ⟨query, found, rfl⟩ := h
  rintro ⟨message, heq⟩
  exact Report.results_ne_failure view query found message heq

/-- A query shows its results, or it fails and shows why. -/
theorem answerQuery_shows (view : Presentation) (catalog : Catalog) (kind : QueryKind)
    (parameters : List String) :
    let result := (answerQuery view catalog kind parameters false).result view
    (result.succeeded = true ∧ ShowsResults view result.output) ∨
      (result.succeeded = false ∧ ShowsFailure view result.output) := by
  intro result
  have hfails (error : QueryError)
      (hresult : result = ({ failure := some (.query error) } : Outcome).result view) :
      result.succeeded = false ∧ ShowsFailure view result.output := by
    rw [hresult]
    exact ⟨rfl, error.message, empty_append _⟩
  cases hquery : Query.ofParameters kind parameters with
  | error error =>
    exact .inr (hfails error (by simp only [result, answerQuery, hquery]))
  | ok query =>
    cases hexecute : catalog.execute query with
    | error error =>
      exact .inr (hfails error (by simp [result, answerQuery, hquery, hexecute]))
    | ok found =>
      have hresult : result = ⟨true, Report.results view query found⟩ := by
        simp [result, answerQuery, hquery, hexecute, Outcome.result]
      rw [hresult]
      exact .inl ⟨rfl, query, found, rfl⟩

/-! ## The command and the session -/

/-- **A query as a command and as a line.** Once the graphs are loaded, a query for a kind and
parameters that are words, as a command, prints on both streams what a quiet session prints whose
only line is the kind's name and the parameters, however this line ends and whatever comes of the
query. The session succeeds in any case; the command does exactly if the session has shown results,
and fails exactly if it has shown a failure. -/
theorem Invocation.run_query_as_line (surroundings : Surroundings) (json : Bool)
    (graphs : Option String) (timeoutMillis : Option Nat) (kind : QueryKind)
    (parameters : List String) (hwords : ∀ parameter ∈ parameters, Text.IsWord parameter)
    (ending : String) (hending : ending ∈ Text.lineEndings) (files files' : FileTree)
    (opened : Workspace.Opened)
    (hopened : (openGraphs (pathOfLocation files.current) graphs timeoutMillis).run files =
      (.ok opened, files')) :
    let query : Invocation := ⟨json, graphs, some (.query kind parameters timeoutMillis false)⟩
    let repl : Invocation := ⟨json, graphs, some (.repl timeoutMillis true)⟩
    let view := query.presentation surroundings
    let typed := Text.encodeUtf8 (queryLine kind parameters ++ ending)
    let asked := (query.run surroundings).run files
    let told := (repl.run { surroundings with input := typed }).run files
    asked.1.output = told.1.output ∧ asked.2 = told.2 ∧ told.1.succeeded = true ∧
      (asked.1.succeeded = true ↔ ShowsResults view told.1.output) ∧
      (asked.1.succeeded = false ↔ ShowsFailure view told.1.output) := by
  intro query repl view typed asked told
  have hasked : asked =
      ((answerQuery view opened.catalog kind parameters false).result view, files') :=
    run_command surroundings json (.query kind parameters timeoutMillis false)
      (withGraphs_run_ok hopened)
  have hlines : Text.decodeLines typed = [.ok (queryLine kind parameters)] := by
    rw [Text.decodeLines_encodeUtf8, queryLine, Text.lines_append_ending
      (Text.isLine_intercalate (isWord_of_mem_queryLine hwords))
      (Text.intercalate_ne_empty kind.isWord_name parameters) hending]
    rfl
  have htold : told =
      (Outcome.result view (session view opened.catalog false (Text.decodeLines typed)), files') :=
    run_command { surroundings with input := typed } json (.repl timeoutMillis true)
      (withGraphs_run_ok hopened)
  rw [hlines, session_queryLine hwords] at htold
  rw [hasked, htold]
  refine ⟨rfl, rfl, rfl, ?_⟩
  show
    (_ ↔ ShowsResults view
      ((answerQuery view opened.catalog kind parameters false).result view).output) ∧
    (_ ↔ ShowsFailure view
      ((answerQuery view opened.catalog kind parameters false).result view).output)
  rcases answerQuery_shows view opened.catalog kind parameters with ⟨hsucceeds, hshows⟩ |
    ⟨hfails, hshows⟩
  · simp [hsucceeds, hshows, hshows.not_showsFailure]
  · have hnot : ¬ ShowsResults view
        ((answerQuery view opened.catalog kind parameters false).result view).output :=
      fun hresults => hresults.not_showsFailure hshows
    simp [hfails, hshows, hnot]

/-- A name that is not found, and a name that is: on both ways the same is printed. -/
theorem Invocation.run_query_as_line_oneGraph :
    let asked (kind : QueryKind) (parameters : List String) :=
      ((run { noColor := true }
        ⟨false, some "g.jsonl", some (.query kind parameters none false)⟩).run oneGraph).1
    let told (text : String) :=
      ((run { noColor := true, input := Text.encodeUtf8 text }
        ⟨false, some "g.jsonl", some (.repl none true)⟩).run oneGraph).1
    (asked .allPaths ["a", "c"]).succeeded = false ∧
      (told "allpaths a c\r\n").output = (asked .allPaths ["a", "c"]).output ∧
      (asked .allPaths ["a", "c"]).output =
        ⟨"", "Execution failed. Reason: Binding with name c contains " ++
        "a typo and not found in the graph. Maybe you meant a, b?\n"⟩ ∧
      (asked .dependencies ["a"]).succeeded = true ∧
      (told "deps a").output = (asked .dependencies ["a"]).output ∧
      (asked .dependencies ["a"]).output = ⟨"b\n", ""⟩ := by
  intro asked told
  have hasked (kind : QueryKind) (parameters : List String) :
      asked kind parameters =
        (answerQuery ⟨false, ⟨false, false⟩⟩ oneGraphOpened.catalog kind parameters false).result
          ⟨false, ⟨false, false⟩⟩ :=
    congrArg Prod.fst (run_command { noColor := true } false (.query kind parameters none false)
      (withGraphs_run_ok openGraphs_oneGraph))
  have htyped : queryLine .allPaths ["a", "c"] ++ "\r\n" = "allpaths a c\r\n" := by decide +kernel
  have htyped' : queryLine .dependencies ["a"] ++ "" = "deps a" := by decide +kernel
  obtain ⟨hprints, -⟩ := run_query_as_line { noColor := true } false (some "g.jsonl") none .allPaths
    ["a", "c"] (by decide) "\r\n" (by decide) oneGraph oneGraph oneGraphOpened openGraphs_oneGraph
  obtain ⟨hprints', -⟩ :=
    run_query_as_line { noColor := true } false (some "g.jsonl") none .dependencies
    ["a"] (by decide) "" (by decide) oneGraph oneGraph oneGraphOpened openGraphs_oneGraph
  rw [htyped] at hprints
  rw [htyped'] at hprints'
  refine ⟨?_, hprints.symm, ?_, ?_, hprints'.symm, ?_⟩
  · rw [hasked]
    decide +kernel
  · rw [hasked]
    decide +kernel
  · rw [hasked]
    decide +kernel
  · rw [hasked]
    decide +kernel

end Console

end BindingGraph
