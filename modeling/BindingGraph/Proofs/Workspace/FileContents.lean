import BindingGraph.Proofs.Files.FileNames
import BindingGraph.Proofs.Text.SplitLines
import BindingGraph.Proofs.Workspace.Loading

/-!
# What a graph file is loaded as

A file that can be read is loaded exactly if its bytes are those of a text, whatever the text is: as
the graph and the warnings of the text's lines, under the stem of the file's name. If some line is
not text, even the last one, nothing is loaded, and the error names the file (`loadFile_contents`).
-/

namespace BindingGraph.Workspace

open Console (pathOfLocation)
open FilePath (IsStem)

variable {files : FileTree} {path : FilePath} {bytes : List UInt8}

theorem loadFile_of_text {text : String} (hfile : files.entryAt path = .ok (.file bytes))
    (htext : Text.encodeUtf8 text = bytes) :
    (loadFile path).run files =
      (.ok (graphName path, LoadedGraph.ofLines (Text.splitLines text)), files) :=
  loadFile_run hfile (Text.linesOfBytes_eq_ok_iff.mpr ⟨text, htext, rfl⟩)

theorem loadFile_of_not_isText (hfile : files.entryAt path = .ok (.file bytes))
    (hbytes : ¬ Text.IsText bytes) :
    ∃ fault, (loadFile path).run files = (.error (.graphFile path (.badLine fault)), files) := by
  cases hlines : Text.linesOfBytes bytes with
  | ok lines =>
    obtain ⟨text, htext, -⟩ := Text.linesOfBytes_eq_ok_iff.mp hlines
    exact absurd ⟨text, htext⟩ hbytes
  | error fault =>
    exact ⟨fault, loadFile_run_of_error (FileAction.readLines_run_of_fault hfile hlines)⟩

/-- A graph is named by the stem of the file that the path ends in. -/
theorem isStem_graphName (ht : files.IsTree) (hfile : files.entryAt path = .ok (.file bytes))
    (hparts : path.parts ≠ []) :
    ∃ name, path.parts.getLast? = some name ∧ IsStem (graphName path) name := by
  obtain ⟨name, hlast, hstem⟩ := ht.exists_fileName hfile hparts
  refine ⟨name, hlast, ?_⟩
  rw [graphName, hstem]
  exact FilePath.isStem_splitName name

/-- **From bytes to graph.** A file that can be read holds the bytes of a text or does not. If it
does, it is loaded as the lines of the text, split at line feeds; if it does not, at whatever place,
loading fails with an error that names the file. The graph's name is the stem of the name in which
the path ends. -/
theorem loadFile_contents (files : FileTree) (path : FilePath) (bytes : List UInt8)
    (hfile : files.entryAt path = .ok (.file bytes)) :
    (∀ text, Text.encodeUtf8 text = bytes →
      (loadFile path).run files =
        (.ok (graphName path, LoadedGraph.ofLines (Text.splitLines text)), files)) ∧
    (¬ Text.IsText bytes →
      ∃ fault, (loadFile path).run files = (.error (.graphFile path (.badLine fault)), files)) ∧
    (files.IsTree → path.parts ≠ [] →
      ∃ fileName, path.parts.getLast? = some fileName ∧ IsStem (graphName path) fileName) := by
  refine ⟨?_, loadFile_of_not_isText hfile, fun ht hparts => isStem_graphName ht hfile hparts⟩
  intro text htext
  exact loadFile_of_text hfile htext

/-! ## A whole file beside a cut one -/

/-- A text with both kinds of line ends, a blank line and no line end behind the last line. -/
def wholeText : String := "[\"é\"]\r\n\n[\"b\",[\"é\"]]"

/-- Bytes that end within a character. -/
def cutBytes : List UInt8 := Text.encodeUtf8 "[\"b\"]\n" ++ [0xC3]

/-- A file of text, and one of bytes that are none. -/
def wholeAndCut : FileTree :=
  ⟨[(["g"], .directory), (["g", "whole.v2.jsonl"], .file (Text.encodeUtf8 wholeText)),
    (["g", "cut.jsonl"], .file cutBytes)], []⟩

theorem not_isText_cutBytes : ¬ Text.IsText cutBytes := by
  rintro ⟨text, htext⟩
  have hdecode := Text.decodeUtf8_eq_ok_iff.mpr htext
  have hfault : (Text.decodeUtf8 cutBytes).isOk = false := by decide +kernel
  rw [hdecode] at hfault
  cases hfault

/-- The first file is named by what the last of two dots follows. -/
theorem loadFile_contents_wholeAndCut :
    let whole := pathOfLocation ["g", "whole.v2.jsonl"]
    let cut := pathOfLocation ["g", "cut.jsonl"]
    (loadFile whole).run wholeAndCut =
      (.ok ("whole.v2", LoadedGraph.ofLines ["[\"é\"]", "", "[\"b\",[\"é\"]]"]), wholeAndCut) ∧
    (∃ fault, (loadFile cut).run wholeAndCut =
      (.error (.graphFile cut (.badLine fault)), wholeAndCut)) ∧
    wholeAndCut.IsTree ∧ IsStem "whole.v2" "whole.v2.jsonl" := by
  intro whole cut
  have ht : wholeAndCut.IsTree := by decide
  have hwhole : wholeAndCut.entryAt whole = .ok (.file (Text.encodeUtf8 wholeText)) :=
    ht.entryAt_eq rfl (by decide)
  have hcut : wholeAndCut.entryAt cut = .ok (.file cutBytes) := ht.entryAt_eq rfl (by decide)
  have hlines : Text.splitLines wholeText = ["[\"é\"]", "", "[\"b\",[\"é\"]]"] := by decide +kernel
  have hname : graphName whole = "whole.v2" := by decide +kernel
  obtain ⟨hloaded, -, hstem⟩ := loadFile_contents wholeAndCut whole _ hwhole
  obtain ⟨-, hfails, -⟩ := loadFile_contents wholeAndCut cut _ hcut
  obtain ⟨fileName, hlast, hstem⟩ := hstem ht (by decide)
  have hfirst := hloaded wholeText rfl
  rw [hlines, hname] at hfirst
  cases hlast
  exact ⟨hfirst, hfails not_isText_cutBytes, ht, hname ▸ hstem⟩

end BindingGraph.Workspace
