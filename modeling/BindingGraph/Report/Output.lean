import BindingGraph.Json.Document
import BindingGraph.Report.Style

/-!
# What a command prints

A command prints to two streams, one for answers and one for failures and prompts. Outputs are
joined one after the other, on each stream by itself.
-/

namespace BindingGraph.Report

/-- The texts printed to the two streams, for answers, and for failures and prompts. -/
structure Output where
  out : String := ""
  err : String := ""
  deriving DecidableEq

namespace Output

/-- One output after the other. -/
protected def append (first second : Output) : Output :=
  ⟨first.out ++ second.out, first.err ++ second.err⟩

instance : Append Output := ⟨Output.append⟩

@[simp] theorem out_append (first second : Output) :
    (first ++ second).out = first.out ++ second.out := rfl

@[simp] theorem err_append (first second : Output) :
    (first ++ second).err = first.err ++ second.err := rfl

/-- Lines for the answers, each with its line end. -/
def lines (texts : List String) : Output :=
  ⟨String.join (texts.map (· ++ "\n")), ""⟩

/-- One document for the answers, indented, with a line end. -/
def document (document : Json.Document) : Output :=
  lines [document.pretty]

end Output

/-- How reports are presented, as JSON documents or as text. -/
structure Presentation where
  json : Bool
  palette : Palette

namespace Presentation

/-- The text in a style. -/
def paint (view : Presentation) (style : Style) (text : String) : String :=
  view.palette.paint style text

end Presentation

end BindingGraph.Report
