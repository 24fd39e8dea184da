import BindingGraph.Proofs.Json.Grammar
import BindingGraph.Report.Output

/-!
# Printed documents

A document is printed as one of its spellings with a line end (`Prints`). Other texts are told from
printed documents by their first character.
-/

namespace BindingGraph.Report

open Json (Document Spells)

/-- What is printed is a spelling of a document with a line end, and nothing else. -/
def Prints (out : String) (document : Document) : Prop :=
  ∃ text : String, Spells text.toList document ∧ out = text ++ "\n"

theorem out_document (document : Document) :
    (Output.document document).out = document.pretty ++ "\n" := by
  show String.join [document.pretty ++ "\n"] = _
  rw [String.join_cons, String.join_nil, String.append_empty]

theorem prints_document (document : Document) : Prints (Output.document document).out document :=
  ⟨document.pretty, Json.spells_pretty document, out_document document⟩

/-- Nothing is no document. -/
theorem not_prints_empty (document : Document) : ¬ Prints "" document := by
  rintro ⟨text, -, htext⟩
  have hlength := congrArg String.length htext
  rw [String.length_append] at hlength
  change 0 = text.length + 1 at hlength
  omega

/-- Words are no document. -/
theorem not_prints_words {words rest : String} {c : Char} (hfirst : words.toList.head? = some c)
    (hc : c ∉ ['n', '"', '[', '\x7b'] ∧ c.isDigit = false) (document : Document) :
    ¬ Prints (words ++ rest) document := by
  rintro ⟨text, hspells, htext⟩
  obtain ⟨d, hd, hstart⟩ := hspells.head?_mem
  have hheads : (words ++ rest).toList.head? = (text ++ "\n").toList.head? := by rw [htext]
  rw [String.toList_append, String.toList_append, List.head?_append, List.head?_append, hfirst, hd]
    at hheads
  cases hheads
  rcases hstart with hstart | hstart
  · exact hc.1 hstart
  · rw [hc.2] at hstart
    cases hstart

end BindingGraph.Report
