import BindingGraph.Proofs.Decimal.Numerals
import BindingGraph.Proofs.Report.PaintedText
import BindingGraph.Report.Listing
import Mathlib.Algebra.GroupWithZero.Nat
import Mathlib.Data.List.Forall2
import Mathlib.Data.List.Nodup

/-!
# Numbers shown in the rows of a listing

What the row of a graph shows is told apart from the way it is put together. A line begins with the
name of the graph and ends with a note of the number of its warnings, or with no such note if there
are none (`LineShows`). A document has the name and the number as two of its fields
(`DocumentShows`). No row shows two numbers, so the numbers that the rows show are determined, and
with them their sum (`ShowsCounts`).
-/

namespace BindingGraph.Report

variable {view : Presentation} {name other line : String} {count count' : Nat}

/-! ## Painted pieces -/

namespace Presentation

/-- An escape sequence, where styles show. -/
def sequence (view : Presentation) (text : String) : String :=
  if view.palette.isOn then text else ""

/-- A text without escape characters is painted by a sequence on either side. -/
theorem paint_eq (view : Presentation) (style : Style) {text : String}
    (h : '\x1b' ∉ text.toList) :
    view.paint style text = view.sequence style.opening ++ text ++ view.sequence ending := by
  rw [paint, Palette.paint, Palette.paintBy, sequence, sequence, Palette.isOn]
  cases view.palette.colors with
  | false => simp
  | true =>
    cases view.palette.ansi with
    | false => simp [escaped]
    | true => simpa using escaped_of_plain style h

end Presentation

theorem escape_not_mem_toString : '\x1b' ∉ (toString count).toList := fun h =>
  absurd (Decimal.isDigit_of_mem_toString h) (by decide)

/-! ## Lines -/

/-- The note of a number of warnings. -/
def note (view : Presentation) (count : Nat) : String :=
  "  " ++ view.paint .warning (toString count ++ " load warnings")

/-- A line shows a graph with a number of warnings: the name comes first, and a note of the number
last, unless there are none; then no such note stands there. -/
def LineShows (view : Presentation) (name : String) (count : Nat) (line : String) : Prop :=
  (∃ rest, line = view.paint .bold name ++ "  " ++ rest) ∧
  if count = 0 then ∀ front other, line ≠ front ++ note view other
  else ∃ front, line = front ++ note view count

theorem note_eq (view : Presentation) (count : Nat) :
    note view count = "  " ++ view.sequence Style.warning.opening ++ toString count ++
      (" load warnings" ++ view.sequence ending) := by
  have hplain : '\x1b' ∉ (toString count ++ " load warnings").toList := by
    rw [String.toList_append, List.mem_append, not_or]
    exact ⟨escape_not_mem_toString, by decide⟩
  rw [note, view.paint_eq .warning hplain]
  simp only [String.append_assoc]

/-- Digits behind a character that is none are found from the end. -/
theorem takeWhile_reverse_append_toString {front : String}
    (h : ∀ c ∈ front.toList.getLast?, c.isDigit = false) (count : Nat) :
    (front ++ toString count).toList.reverse.takeWhile Char.isDigit =
      (toString count).toList.reverse := by
  rw [String.toList_append, List.reverse_append, List.takeWhile_append_of_pos fun c hc =>
    Decimal.isDigit_of_mem_toString (List.mem_reverse.mp hc)]
  rw [← List.head?_reverse] at h
  cases hfront : front.toList.reverse with
  | nil => simp
  | cons c cs =>
    rw [hfront] at h
    simp [h c rfl]

/-- A line does not end with the notes of two numbers. -/
theorem note_unique {front front' : String}
    (h : front ++ note view count = front' ++ note view count') : count = count' := by
  rw [note_eq, note_eq] at h
  simp only [← String.append_assoc, String.append_left_inj] at h
  have hlast (front : String) :
      ∀ c ∈ (front ++ "  " ++ view.sequence Style.warning.opening).toList.getLast?,
        c.isDigit = false := by
    cases hon : view.palette.isOn with
    | false => simp [Presentation.sequence, hon]
    | true => simp [Presentation.sequence, hon, Style.opening, Style.code]
  have hdigits : (toString count).toList.reverse = (toString count').toList.reverse := by
    rw [← takeWhile_reverse_append_toString (hlast front) count, h,
      takeWhile_reverse_append_toString (hlast front') count']
  refine (Decimal.isNumeral_toString count).unique ?_
  rw [List.reverse_injective hdigits]
  exact Decimal.isNumeral_toString count'

/-- A line shows one number only. -/
theorem LineShows.unique (h : LineShows view name count line)
    (h' : LineShows view other count' line) : count = count' := by
  obtain ⟨-, h⟩ := h
  obtain ⟨-, h'⟩ := h'
  split_ifs at h h' with hcount hcount' hcount'
  · rw [hcount, hcount']
  · obtain ⟨front, hline⟩ := h'
    exact absurd hline (h front count')
  · obtain ⟨front, hline⟩ := h
    exact absurd hline (h' front count)
  · obtain ⟨front, rfl⟩ := h
    obtain ⟨front', hline⟩ := h'
    exact note_unique hline

/-- The size of a graph in words. -/
def sizeText (summary : GraphSummary) : String :=
  toString summary.nodes ++ " bindings, " ++ toString summary.edges ++ " dependencies"

theorem graphLine_eq (view : Presentation) (count : Nat) (summary : GraphSummary) :
    graphLine view count summary = view.paint .bold summary.name ++ "  " ++
      view.paint .dimmed (sizeText summary) ++ if count = 0 then "" else note view count := by
  rw [graphLine]
  split
  · exact (String.append_empty).symm
  · exact String.append_assoc

/-- The size of a graph does not end as a note does. -/
theorem size_ne_note (front front' : String) (summary : GraphSummary) :
    front ++ view.paint .dimmed (sizeText summary) ≠ front' ++ note view count := by
  have hplain : '\x1b' ∉ (sizeText summary).toList := by
    simp only [sizeText, String.toList_append, List.mem_append, escape_not_mem_toString]
    decide
  rw [view.paint_eq .dimmed hplain, note_eq, sizeText]
  simp only [← String.append_assoc, ne_eq, String.append_left_inj]
  intro h
  -- The last words differ before their last letter.
  have hletters := congrArg (·.toList.reverse[1]?) h
  simp at hletters

theorem lineShows_graphLine (view : Presentation) (count : Nat) (summary : GraphSummary) :
    LineShows view summary.name count (graphLine view count summary) := by
  rw [graphLine_eq]
  refine ⟨⟨_, String.append_assoc⟩, ?_⟩
  split_ifs with hcount
  · intro front other
    rw [String.append_empty]
    exact size_ne_note _ front summary
  · exact ⟨_, rfl⟩

/-! ## Documents -/

/-- A document shows a graph with a number of warnings, as fields of these names. -/
def DocumentShows (name : String) (count : Nat) (document : Json.Document) : Prop :=
  ∃ fields, document = .object fields ∧ (fields.map Prod.fst).Nodup ∧
    ("name", .string name) ∈ fields ∧ ("warnings", .number count) ∈ fields

/-- A document shows one number only. -/
theorem DocumentShows.unique {document : Json.Document} (h : DocumentShows name count document)
    (h' : DocumentShows other count' document) : count = count' := by
  obtain ⟨fields, rfl, hkeys, -, hwarnings⟩ := h
  obtain ⟨fields', hfields, -, -, hwarnings'⟩ := h'
  cases hfields
  cases List.inj_on_of_nodup_map hkeys hwarnings hwarnings' rfl
  rfl

theorem documentShows_graphDocument (count : Nat) (summary : GraphSummary) :
    DocumentShows summary.name count (graphDocument count summary) :=
  ⟨_, rfl, by simp, by simp, by simp⟩

/-! ## Rows -/

/-- Rows show graphs with their numbers of warnings, one by one and in this order: each the number
of its own graph and no other, so that the numbers that are shown add up to the total. -/
structure ShowsCounts {Row : Type} (Shows : String → Nat → Row → Prop)
    (counts : List (String × Nat)) (rows : List Row) (total : Nat) : Prop where
  each : List.Forall₂ (fun count row => Shows count.1 count.2 row ∧
    ∀ name shown, Shows name shown row → shown = count.2) counts rows
  sum : ∀ shown, List.Forall₂ (fun row shown => ∃ name, Shows name shown row) rows shown →
    shown.sum = total

/-- What shows one number only shows the sum of them. -/
theorem showsCounts_of_unique {Row : Type} {Shows : String → Nat → Row → Prop}
    (hunique : ∀ {name other count count' row}, Shows name count row → Shows other count' row →
      count = count')
    {counts : List (String × Nat)} {rows : List Row}
    (h : List.Forall₂ (fun count row => Shows count.1 count.2 row) counts rows) :
    ShowsCounts Shows counts rows (counts.map Prod.snd).sum where
  each := h.imp fun _ _ hshows => ⟨hshows, fun _ _ hother => hunique hother hshows⟩
  sum shown hshown := by
    induction h generalizing shown with
    | nil =>
      cases hshown
      rfl
    | @cons count row counts rows hfirst hrest ih =>
      cases hshown with
      | @cons _ first _ others hother hothers =>
        obtain ⟨name, hother⟩ := hother
        rw [List.map_cons, List.sum_cons, List.sum_cons, ih others hothers, hunique hother hfirst]

end BindingGraph.Report
