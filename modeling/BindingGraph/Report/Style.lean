import BindingGraph.Path

/-!
# Styled text

Reports mark texts by their role. Two switches have to be on for any of this to show: the reader's
wish for colours, which is asked before a text is painted, and the terminal's ability, which belongs
to the way in which styled texts are written (`Styling`). A styled text stands between the sequence
that opens its style and the sequence that ends every style. Where the text itself holds the ending
sequence the style is opened again behind it, so that it lasts to the end (`escaped`).
-/

namespace BindingGraph.Report

/-- What a text stands for: `binding` for a binding name, `dimmed` for arrows, labels and empty
answers, `bold` for headings and names of graphs. -/
inductive Style where
  | success
  | error
  | warning
  | binding
  | dimmed
  | bold

/-- The number of the style in an escape sequence. -/
def Style.code : Style → String
  | .success => "32"
  | .error => "31"
  | .warning => "33"
  | .binding => "36"
  | .dimmed => "2"
  | .bold => "1"

/-- The escape sequence that opens a style. -/
def Style.opening (style : Style) : String := "\x1b[" ++ style.code ++ "m"

/-- The escape sequence that ends every style. -/
def ending : String := "\x1b[0m"

/-- A way to write a text in a style, on a terminal that understands escape sequences or on one that
does not. -/
abbrev Styling := Bool → Style → String → String

/-- Between escape sequences where they are understood: the style is opened again after each ending
sequence inside. -/
def escaped : Styling := fun ansi style text =>
  if ansi then
    style.opening ++ (ending ++ style.opening).intercalate (Text.splitOn ending text) ++ ending
  else text

/-- The two switches that styles depend on: the reader wants colours, and the terminal understands
escape sequences. -/
structure Palette where
  colors : Bool
  ansi : Bool

namespace Palette

/-- Whether styles show. -/
def isOn (palette : Palette) : Bool := palette.colors && palette.ansi

/-- The text in a style, for a reader who wants it. -/
def paintBy (styling : Styling) (palette : Palette) (style : Style) (text : String) : String :=
  if palette.colors then styling palette.ansi style text else text

/-- The line that shows a path, or a single name: names as bindings, arrows dimmed. -/
def paintPathBy (styling : Styling) (palette : Palette) (line : String) : String :=
  if palette.colors then
    (palette.paintBy styling .dimmed Path.arrow).intercalate
      ((Path.ofText line).nodes.map (palette.paintBy styling .binding))
  else line

/-- The text in a style, between escape sequences. -/
def paint (palette : Palette) : Style → String → String := palette.paintBy escaped

/-- The line that shows a path, with names and arrows between escape sequences. -/
def paintPath (palette : Palette) : String → String := palette.paintPathBy escaped

theorem paintPath_of_on {palette : Palette} (h : palette.isOn = true) (line : String) :
    palette.paintPath line =
      (palette.paint .dimmed Path.arrow).intercalate
        ((Path.ofText line).nodes.map (palette.paint .binding)) := by
  obtain ⟨hcolors, -⟩ := Bool.and_eq_true_iff.mp h
  exact if_pos hcolors

end Palette

end BindingGraph.Report
