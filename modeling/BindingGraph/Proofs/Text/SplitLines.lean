import BindingGraph.Proofs.Text.Lines
import BindingGraph.Proofs.Text.Validity

/-!
# Lines of bytes and lines of text

Bytes that are cut into lines, each of which is then decoded by itself, give lines exactly if they
are the bytes of a text, and these are the lines of the text (`linesOfBytes_eq_ok_iff`). A line end
never lies inside a character, so nothing that is cut off at one can be completed by what follows.
The lines of a text are told from its parts between line feeds (`splitLines`).
-/

namespace BindingGraph.Text

/-! ## The lines of a text, from its parts -/

/-- A part without a carriage return at its end. -/
def withoutReturn (part : List Char) : List Char :=
  if part.getLast? = some '\r' then part.dropLast else part

/-- The lines that the parts between line feeds are: each of them but the last has been ended
by one, and a carriage return before it goes with it; the last part is a line too, unless it
is empty. -/
def linesOfParts (parts : List (List Char)) : List (List Char) :=
  parts.dropLast.map withoutReturn ++ (parts.getLast?.filter (· ≠ [])).toList

/-- The lines of a text, which is split at its line feeds. -/
def splitLines (text : String) : List String :=
  (linesOfParts (text.toList.splitOn '\n')).map String.ofList

theorem linesOfParts_cons {part : List Char} {parts : List (List Char)} (h : parts ≠ []) :
    linesOfParts (part :: parts) = withoutReturn part :: linesOfParts parts := by
  rw [linesOfParts, List.dropLast_cons_of_ne_nil h, List.getLast?_cons_of_ne_nil h]
  rfl

theorem dropLineEnd_append_lineFeed (part : List Char) :
    dropLineEnd '\n' '\r' (part ++ ['\n']) = withoutReturn part := by
  rw [withoutReturn]
  split_ifs with hreturn
  · obtain ⟨front, rfl⟩ := List.getLast?_eq_some_iff.mp hreturn
    rw [List.append_assoc, List.dropLast_concat]
    exact dropLineEnd_append_both
  · exact dropLineEnd_append hreturn

theorem map_dropLineEnd_cutChars {line : List Char} (h : '\n' ∉ line) (cs : List Char) :
    (cutChars line cs).map (dropLineEnd '\n' '\r') =
      linesOfParts ((line.reverse ++ cs).splitOn '\n') := by
  induction cs generalizing line with
  | nil =>
    have hline : '\n' ∉ line.reverse := fun hmem => h (List.mem_reverse.mp hmem)
    have hkept : dropLineEnd '\n' '\r' line.reverse = line.reverse :=
      dropLineEnd_of_getLast?_ne fun hlast => hline (List.mem_of_getLast? hlast)
    rw [List.append_nil, List.splitOn_eq_singleton hline, cutChars]
    split_ifs with hempty
    · rw [List.isEmpty_iff.mp hempty]
      rfl
    · have hne : line ≠ [] := by simpa using hempty
      rw [List.map_singleton, hkept]
      simp [linesOfParts, Option.filter_some, hne]
  | cons ch cs ih =>
    rw [cutChars]
    split_ifs with hfeed
    · subst hfeed
      have hline : '\n' ∉ line.reverse := fun hmem => h (List.mem_reverse.mp hmem)
      rw [List.splitOn_append_cons_self_of_not_mem hline,
        linesOfParts_cons (List.splitOn_ne_nil _ _), List.map_cons, ih List.not_mem_nil,
        List.reverse_cons, dropLineEnd_append_lineFeed]
      rfl
    · have hline : '\n' ∉ ch :: line := by
        rintro (_ | ⟨_, hmem⟩)
        · exact hfeed rfl
        · exact h hmem
      rw [ih hline, List.reverse_cons, List.append_assoc]
      rfl

theorem lines_eq_splitLines (text : String) : lines text = splitLines text := by
  have hparts := map_dropLineEnd_cutChars (List.not_mem_nil (a := '\n')) text.toList
  rw [splitLines, ← List.nil_append text.toList, ← List.reverse_nil, ← hparts, List.map_map]
  rfl

/-! ## The bytes of a text, from its lines -/

/-- Bytes that are those of a text. -/
def IsText (bytes : List UInt8) : Prop := ∃ text, encodeUtf8 text = bytes

variable {bytes line : List UInt8}

theorem IsText.append {others : List UInt8} (h : IsText bytes) (h' : IsText others) :
    IsText (bytes ++ others) := by
  obtain ⟨text, rfl⟩ := h
  obtain ⟨other, rfl⟩ := h'
  exact ⟨text ++ other, encodeUtf8_append text other⟩

theorem IsText.flatten {pieces : List (List UInt8)} (h : ∀ piece ∈ pieces, IsText piece) :
    IsText pieces.flatten := by
  induction pieces with
  | nil => exact ⟨"", rfl⟩
  | cons piece pieces ih =>
    rw [List.flatten_cons]
    exact (h piece List.mem_cons_self).append
      (ih fun other hother => h other (List.mem_cons_of_mem _ hother))

/-- Cutting loses nothing. -/
theorem flatten_cutLines (line bytes : List UInt8) :
    (cutLines line bytes).flatten = line.reverse ++ bytes := by
  induction bytes generalizing line with
  | nil => cases line <;> simp [cutLines]
  | cons byte bytes ih =>
    rw [cutLines]
    split_ifs with hfeed
    · simp [ih]
    · simp [ih]

/-- What is dropped at the end of a line is text by itself. -/
theorem eq_dropLineEnd_append (line : List UInt8) :
    ∃ ending, IsText ending ∧ line = dropLineEnd 10 13 line ++ ending := by
  by_cases hfeed : line.getLast? = some 10
  · obtain ⟨front, rfl⟩ := List.getLast?_eq_some_iff.mp hfeed
    by_cases hreturn : front.getLast? = some 13
    · obtain ⟨front, rfl⟩ := List.getLast?_eq_some_iff.mp hreturn
      refine ⟨[13, 10], ⟨"\r\n", rfl⟩, ?_⟩
      rw [List.append_assoc]
      exact congrArg (· ++ [13, 10]) dropLineEnd_append_both.symm
    · exact ⟨[10], ⟨"\n", rfl⟩, by rw [dropLineEnd_append hreturn]⟩
  · exact ⟨[], ⟨"", rfl⟩, by rw [dropLineEnd_of_getLast?_ne hfeed, List.append_nil]⟩

theorem isText_of_decodeLine {text : String} (h : decodeLine line = .ok text) : IsText line := by
  obtain ⟨ending, hending, hline⟩ := eq_dropLineEnd_append line
  rw [hline]
  exact IsText.append ⟨text, decodeUtf8_eq_ok_iff.mp h⟩ hending

theorem mapM_eq_ok_iff {ε α β : Type} {f : α → Except ε β} {xs : List α} {ys : List β} :
    xs.mapM f = .ok ys ↔ xs.map f = ys.map .ok := by
  induction xs generalizing ys with
  | nil => cases ys <;> simp [pure, Except.pure]
  | cons x xs ih =>
    rw [List.mapM_cons]
    cases hx : f x with
    | error error => cases ys <;> simp [bind, Except.bind, hx]
    | ok y =>
      cases hxs : xs.mapM f with
      | error error => cases ys <;> simp [bind, Except.bind, hx, ← ih, hxs]
      | ok others => cases ys <;> simp [bind, Except.bind, pure, Except.pure, hx, ← ih, hxs]

/-- Bytes give lines exactly if they are those of a text, and then the lines of the text. -/
theorem linesOfBytes_eq_ok_iff {found : List String} :
    linesOfBytes bytes = .ok found ↔ ∃ text, encodeUtf8 text = bytes ∧ splitLines text = found := by
  have hlines : linesOfBytes bytes = .ok found ↔ decodeLines bytes = found.map .ok := mapM_eq_ok_iff
  rw [hlines]
  constructor
  · intro h
    have htext : IsText (cutLines [] bytes).flatten := by
      apply IsText.flatten
      intro line hline
      have hmem : decodeLine line ∈ found.map Except.ok := h ▸ List.mem_map_of_mem hline
      obtain ⟨text, -, hdecode⟩ := List.mem_map.mp hmem
      exact isText_of_decodeLine hdecode.symm
    rw [flatten_cutLines, List.reverse_nil, List.nil_append] at htext
    obtain ⟨text, rfl⟩ := htext
    refine ⟨text, rfl, ?_⟩
    -- The text's own lines are the ones that have been found.
    rw [decodeLines_encodeUtf8, lines_eq_splitLines] at h
    exact (List.map_inj_right fun _ _ heq => Except.ok.inj heq).mp h
  · rintro ⟨text, rfl, rfl⟩
    rw [decodeLines_encodeUtf8, lines_eq_splitLines]

end BindingGraph.Text
