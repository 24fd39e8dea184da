import BindingGraph.Proofs.Text.Separated
import BindingGraph.Report.Answers
import Mathlib.Data.List.TakeWhile

/-!
# Painted text

Painting puts style sequences into a text and leaves it as it is otherwise: without them it is the
text again (`unstyled`). This is followed through the pieces of a line, as a property that does not
depend on what stands behind a piece (`Shows`), so a line that is cut at its arrows, painted piece
by piece and joined again still shows the line, however the arrows lie in it
(`Palette.paintPathBy_keeps_text`). It only matters that a styled text is the text between two style
sequences, or by itself on a terminal without them (`Encloses`).
-/

namespace BindingGraph

/-- A line is the text of the path that it shows. -/
theorem Path.text_ofText (line : String) : (ofText line).text = line :=
  Text.intercalate_splitOn arrow line

namespace Report

/-! ## Style sequences -/

/-- What a style sequence can hold between its bracket and its last letter. -/
def isParameter (c : Char) : Bool := c.isDigit || c == ';'

/-- An escape character and a bracket, digits and semicolons, and an `m`. -/
def IsStyleSequence (sequence : String) : Prop :=
  ∃ parameters : List Char, (∀ c ∈ parameters, isParameter c) ∧
    sequence.toList = '\x1b' :: '[' :: (parameters ++ ['m'])

/-- What stands behind the style sequence that the characters begin with. -/
def afterSequence? : List Char → Option (List Char)
  | '\x1b' :: '[' :: cs =>
    match cs.dropWhile isParameter with
    | 'm' :: rest => some rest
    | _ => none
  | _ => none

variable {c : Char} {cs rest : List Char} {sequence styled text : String}

theorem afterSequence?_eq_some_iff :
    afterSequence? cs = some rest ↔
      ∃ sequence, IsStyleSequence sequence ∧ cs = sequence.toList ++ rest := by
  constructor
  · intro h
    unfold afterSequence? at h
    split at h
    · rename_i cs
      split at h
      · rename_i behind hdrop
        cases h
        refine ⟨String.ofList ('\x1b' :: '[' :: (cs.takeWhile isParameter ++ ['m'])),
          ⟨cs.takeWhile isParameter, fun c hc => List.mem_takeWhile_imp hc, String.toList_ofList⟩,
          ?_⟩
        rw [String.toList_ofList, List.cons_append, List.cons_append, List.append_assoc,
          List.singleton_append, ← hdrop, List.takeWhile_append_dropWhile]
      · cases h
    · cases h
  · rintro ⟨sequence, ⟨parameters, hparameters, hsequence⟩, rfl⟩
    have hdrop : (parameters ++ 'm' :: rest).dropWhile isParameter = 'm' :: rest := by
      rw [List.dropWhile_append_of_pos hparameters]
      rfl
    rw [hsequence, List.cons_append, List.cons_append, List.append_assoc, List.singleton_append,
      afterSequence?, hdrop]
    rfl

theorem length_lt_of_afterSequence? (h : afterSequence? cs = some rest) :
    rest.length < cs.length := by
  obtain ⟨sequence, ⟨parameters, -, hsequence⟩, rfl⟩ := afterSequence?_eq_some_iff.mp h
  rw [hsequence, List.length_append, List.length_cons]
  omega

/-- The characters without the style sequences among them. -/
def unstyledChars (cs : List Char) : List Char :=
  match cs with
  | [] => []
  | c :: cs =>
    match h : afterSequence? (c :: cs) with
    | some rest =>
      have := length_lt_of_afterSequence? h
      unstyledChars rest
    | none => c :: unstyledChars cs
termination_by cs.length
decreasing_by
  · exact this
  · exact Nat.lt_succ_self cs.length

/-- The text without its style sequences. -/
def unstyled (text : String) : String := String.ofList (unstyledChars text.toList)

theorem unstyledChars_of_some (h : afterSequence? (c :: cs) = some rest) :
    unstyledChars (c :: cs) = unstyledChars rest := by
  rw [unstyledChars]
  split
  · rename_i hsome
    exact congrArg unstyledChars (Option.some.inj (hsome.symm.trans h))
  · rename_i hnone
    cases hnone.symm.trans h

theorem unstyledChars_of_none (h : afterSequence? (c :: cs) = none) :
    unstyledChars (c :: cs) = c :: unstyledChars cs := by
  rw [unstyledChars]
  split
  · rename_i hsome
    cases hsome.symm.trans h
  · rfl

theorem afterSequence?_eq_none (h : c ≠ '\x1b') : afterSequence? (c :: cs) = none := by
  unfold afterSequence?
  split
  · rename_i heq
    exact absurd (List.cons.inj heq).1 h
  · rfl

/-! ## What styled text shows -/

/-- Whatever stands behind it, the styled text without its style sequences is the text. -/
def Shows (styled text : String) : Prop :=
  ∀ rest, unstyledChars (styled.toList ++ rest) = text.toList ++ unstyledChars rest

theorem Shows.unstyled_eq (h : Shows styled text) : unstyled styled = text := by
  have hshown := h []
  rw [List.append_nil, unstyledChars, List.append_nil] at hshown
  rw [unstyled, hshown, String.ofList_toList]

/-- A text shows itself if no style sequence can begin in it. -/
theorem shows_self (h : '\x1b' ∉ text.toList) : Shows text text := by
  intro rest
  generalize text.toList = cs at h
  induction cs with
  | nil => rfl
  | cons c cs ih =>
    rw [List.mem_cons, not_or] at h
    rw [List.cons_append, unstyledChars_of_none (afterSequence?_eq_none (Ne.symm h.1)), ih h.2,
      List.cons_append]

theorem IsStyleSequence.shows (h : IsStyleSequence sequence) : Shows sequence "" := by
  intro rest
  have hafter : afterSequence? (sequence.toList ++ rest) = some rest :=
    afterSequence?_eq_some_iff.mpr ⟨sequence, h, rfl⟩
  obtain ⟨parameters, -, hsequence⟩ := h
  rw [hsequence, List.cons_append] at hafter ⊢
  exact unstyledChars_of_some hafter

theorem Shows.append {styled' text' : String} (h : Shows styled text) (h' : Shows styled' text') :
    Shows (styled ++ styled') (text ++ text') := by
  intro rest
  rw [String.toList_append, String.toList_append, List.append_assoc, List.append_assoc, h, h']

/-- Pieces that are joined show what they show by themselves, and so does what stands
between them. -/
theorem Shows.intercalate {between separator : String} {paint : String → String}
    {parts : List String} (hbetween : Shows between separator)
    (h : ∀ part ∈ parts, Shows (paint part) part) :
    Shows (between.intercalate (parts.map paint)) (separator.intercalate parts) := by
  induction parts with
  | nil => exact fun _ => rfl
  | cons first rest ih =>
    have hfirst := h first List.mem_cons_self
    cases rest with
    | nil => rwa [List.map_singleton, String.intercalate_singleton, String.intercalate_singleton]
    | cons second rest =>
      rw [List.map_cons, List.map_cons, String.intercalate_cons_cons, String.intercalate_cons_cons]
      exact (hfirst.append hbetween).append
        (ih fun part hpart => h part (List.mem_cons_of_mem _ hpart))

/-! ## Ways to write styled text -/

/-- A styled text is the text itself on a terminal without styles, and elsewhere the text between a
sequence that opens its style and one that ends it. -/
structure Encloses (styling : Styling) : Prop where
  plain : ∀ style text, styling false style text = text
  enclosed : ∀ style text, '\x1b' ∉ text.toList →
    ∃ opening ending, IsStyleSequence opening ∧ IsStyleSequence ending ∧
      styling true style text = opening ++ text ++ ending

theorem Style.isStyleSequence_opening (style : Style) : IsStyleSequence style.opening := by
  refine ⟨style.code.toList, List.all_eq_true.mp ?_, ?_⟩
  · cases style <;> rfl
  · cases style <;> rfl

theorem isStyleSequence_ending : IsStyleSequence ending := ⟨['0'], List.all_eq_true.mp rfl, rfl⟩

/-- Texts without escape characters need no style to be opened again. -/
theorem escaped_of_plain (style : Style) (h : '\x1b' ∉ text.toList) :
    escaped true style text = style.opening ++ text ++ ending := by
  have hnone : ¬ ending.toList <:+: text.toList := fun hinside => h (hinside.subset (by decide))
  rw [escaped, if_pos rfl, Text.splitOn_of_not_infix (by decide) hnone,
    String.intercalate_singleton]

theorem encloses_escaped : Encloses escaped where
  plain _ _ := rfl
  enclosed style _ h := ⟨style.opening, ending, style.isStyleSequence_opening,
    isStyleSequence_ending, escaped_of_plain style h⟩

namespace Palette

variable {styling : Styling} {palette : Palette} {line : String}

theorem paintBy_of_off (h : Encloses styling) (hoff : palette.colors = false ∨ palette.ansi = false)
    (style : Style) (text : String) : palette.paintBy styling style text = text := by
  rw [paintBy]
  split
  · rename_i hcolors
    have hansi : palette.ansi = false := hoff.resolve_left (by simp [hcolors])
    rw [hansi, h.plain]
  · rfl

theorem shows_paintBy (h : Encloses styling) (palette : Palette) (style : Style)
    (htext : '\x1b' ∉ text.toList) : Shows (palette.paintBy styling style text) text := by
  by_cases hoff : palette.colors = false ∨ palette.ansi = false
  · exact (paintBy_of_off h hoff style text).symm ▸ shows_self htext
  · rw [not_or, Bool.not_eq_false, Bool.not_eq_false] at hoff
    obtain ⟨hcolors, hansi⟩ := hoff
    obtain ⟨opening, ending, hopening, hending, hstyled⟩ := h.enclosed style text htext
    have hshows := (hopening.shows.append (shows_self htext)).append hending.shows
    rw [String.empty_append, String.append_empty, ← hstyled] at hshows
    rwa [paintBy, if_pos hcolors, hansi]

/-- The pieces between the arrows of a line hold nothing that is not in the line. -/
theorem shows_paintPathBy (h : Encloses styling) (palette : Palette)
    (hline : '\x1b' ∉ line.toList) :
    Shows (palette.paintPathBy styling line) line := by
  rw [paintPathBy]
  split
  · have hnodes (node : String) (hnode : node ∈ (Path.ofText line).nodes) : '\x1b' ∉ node.toList :=
      fun hmem => hline (Path.text_ofText line ▸ Text.mem_intercalate_of_mem hnode hmem)
    have harrow : Shows (palette.paintBy styling .dimmed Path.arrow) Path.arrow :=
      palette.shows_paintBy h .dimmed (by decide)
    have hshows :=
      harrow.intercalate fun node hnode => palette.shows_paintBy h .binding (hnodes node hnode)
    have hjoined : Path.arrow.intercalate (Path.ofText line).nodes = line := Path.text_ofText line
    rwa [hjoined] at hshows
  · exact shows_self hline

/-- With one switch off the pieces are joined to the line that they are cut from. -/
theorem paintPathBy_of_off (h : Encloses styling)
    (hoff : palette.colors = false ∨ palette.ansi = false) (line : String) :
    palette.paintPathBy styling line = line := by
  have hbare := paintBy_of_off h hoff
  rw [paintPathBy]
  split
  · rw [hbare, List.map_congr_left (fun node _ => hbare .binding node), List.map_id']
    exact Path.text_ofText line
  · rfl

/-- **Painting keeps the text.** In whatever way styled texts are enclosed, a line without escape
characters is what its painted form shows when the style sequences are deleted, and it is that form
itself if the reader wants no colours or the terminal understands no escape sequences. -/
theorem paintPathBy_keeps_text (h : Encloses styling) (palette : Palette) (line : String) :
    ('\x1b' ∉ line.toList → unstyled (palette.paintPathBy styling line) = line) ∧
    (palette.colors = false ∨ palette.ansi = false → palette.paintPathBy styling line = line) :=
  ⟨fun hline => (palette.shows_paintPathBy h hline).unstyled_eq,
    fun hoff => paintPathBy_of_off h hoff line⟩

/-- Arrows at the start, one that shares a space with another, and one without the space
behind it. -/
theorem paintPathBy_keeps_text_arrows :
    let line := " -> a -> -> b ->"
    let painted := "\x1b[36m\x1b[0m\x1b[2m -> \x1b[0m\x1b[36ma\x1b[0m" ++
      "\x1b[2m -> \x1b[0m\x1b[36m-> b ->\x1b[0m"
    Encloses escaped ∧ '\x1b' ∉ line.toList ∧ paintPath ⟨true, true⟩ line = painted ∧
      unstyled painted = line ∧ paintPath ⟨true, false⟩ line = line ∧
      paintPath ⟨false, true⟩ line = line := by
  intro line painted
  have hline : '\x1b' ∉ line.toList := by decide
  have hpainted : paintPath ⟨true, true⟩ line = painted := by decide +kernel
  refine ⟨encloses_escaped, hline, hpainted, ?_, ?_, ?_⟩
  · rw [← hpainted]
    exact (paintPathBy_keeps_text encloses_escaped ⟨true, true⟩ line).1 hline
  · exact (paintPathBy_keeps_text encloses_escaped ⟨true, false⟩ line).2 (.inr rfl)
  · exact (paintPathBy_keeps_text encloses_escaped ⟨false, true⟩ line).2 (.inl rfl)

end Palette

/-! ## Lines of an answer -/

/-- The lines that answer a query show its results, or that there are none. -/
theorem unstyled_resultLines (view : Presentation) {results : List String}
    (hresults : ∀ line ∈ results, '\x1b' ∉ line.toList) :
    (resultLines view results).map unstyled =
      if results.isEmpty then ["No results."] else results := by
  unfold resultLines
  split
  · have hshows : Shows (view.paint .dimmed "No results.") "No results." :=
      view.palette.shows_paintBy encloses_escaped .dimmed (by decide)
    rw [List.map_singleton, hshows.unstyled_eq]
  · have hshown (line : String) (hline : line ∈ results) :
        unstyled (view.palette.paintPath line) = line :=
      (view.palette.shows_paintPathBy encloses_escaped (hresults line hline)).unstyled_eq
    rw [List.map_map]
    exact (List.map_congr_left hshown).trans (List.map_id' results)

end Report

end BindingGraph
