import BindingGraph.Proofs.Json.Structure
import BindingGraph.Proofs.Text.Lines
import BindingGraph.Record.Basic

/-!
# Records that have been written

A record is read back from its text (`Record.decode_text`), and its text is one visible line between
braces, so that it also survives being cut out of a file and trimmed.
-/

namespace BindingGraph.Record

open Json Json.Reader

/-! ## The characters of a record -/

theorem compactItems_strings (names : List String) :
    Document.compactItems (names.map .string) = names.map quote := by
  induction names with
  | nil => rfl
  | cons name names ih => rw [List.map_cons, Document.compactItems, ih]; rfl

theorem intercalate_quoteChars (names : List String) :
    [','].intercalate (names.map quoteChars) = itemsChars true names := by
  have hnext (names : List String) :
      itemsChars false names = (names.map quoteChars).flatMap (',' :: ·) := by
    induction names with
    | nil => rfl
    | cons name names ih => rw [itemsChars, ih]; rfl
  cases names with
  | nil => rfl
  | cons name names =>
    rw [itemsChars, hnext, List.map_cons]
    generalize quoteChars name = first
    induction names generalizing first with
    | nil => simp
    | cons next names ih =>
      rw [List.map_cons, List.intercalate_cons_cons, ih, List.flatMap_cons]
      simp

theorem toList_compact_strings (names : List String) :
    (Document.strings names).compact.toList = listChars names := by
  rw [Document.strings, Document.compact, compactItems_strings, String.toList_append,
    String.toList_append, String.toList_intercalate, List.map_map]
  show ['['] ++ [','].intercalate (names.map fun name => (quote name).toList) ++ [']'] = _
  simp only [toList_quote, intercalate_quoteChars]
  rfl

/-- The record's fields and the closing brace, from after the opening brace. -/
def bodyChars (record : Record) : List Char :=
  quoteChars "key" ++ ':' :: (quoteChars record.key ++
    ',' :: (quoteChars "dependencies" ++ ':' :: (listChars record.dependencies ++ ['}'])))

theorem toList_text (record : Record) : record.text.toList = '{' :: record.bodyChars := by
  have hlist := toList_compact_strings record.dependencies
  simp only [text, document, Document.compact, Document.compactFields, String.toList_append,
    String.toList_intercalate, List.map_cons, List.map_nil, toList_quote, hlist, bodyChars]
  simp [List.intercalate]

/-! ## Reading it back -/

/-- A record is read back from its text. -/
theorem decode_text (record : Record) : decode record.text = .ok record := by
  apply readAll_of_yields
  rw [toList_text]
  -- There are steps for both fields and for the end.
  obtain ⟨count, hcount⟩ : ∃ count, record.bodyChars.length = count + 2 :=
    ⟨record.bodyChars.length - 2, by simp [bodyChars, quoteChars]; omega⟩
  have hmembers : Yields (members fields (record.bodyChars.length + 1) true {}) record.bodyChars
      ['}'] ⟨some record.key, some record.dependencies⟩ := by
    rw [hcount]
    refine yields_members_field (yields_key?_first "key" _) rfl rfl
      ((yields_string "a string" record.key _).bind (Yields.pure _ _)) ?_
    refine yields_members_field (yields_key?_next "dependencies" _) rfl rfl
      ((yields_list "a string" record.dependencies _).bind (Yields.pure _ _)) ?_
    exact yields_members_end _ _ _ _
  exact yields_fielded hmembers rfl

/-! ## One line of a file -/

theorem visible_of_mem_itemsChars {names : List String} {first : Bool} {d : Char}
    (h : d ∈ itemsChars first names) : ¬ d.toNat < 0x20 := by
  induction names generalizing first with
  | nil => cases h
  | cons name names ih =>
    cases first with
    | true =>
      rcases List.mem_append.mp h with h | h
      · exact visible_of_mem_quoteChars h
      · exact ih h
    | false =>
      rcases List.mem_cons.mp h with rfl | h
      · decide
      · rcases List.mem_append.mp h with h | h
        · exact visible_of_mem_quoteChars h
        · exact ih h

theorem visible_of_mem_text {record : Record} {d : Char} (h : d ∈ record.text.toList) :
    ¬ d.toNat < 0x20 := by
  rw [toList_text, bodyChars, listChars] at h
  simp only [List.cons_append, List.mem_cons, List.mem_append, List.not_mem_nil, or_false] at h
  rcases h with rfl | h | rfl | h | rfl | h | rfl | rfl | (h | rfl) | rfl
  · decide
  · exact visible_of_mem_quoteChars h
  · decide
  · exact visible_of_mem_quoteChars h
  · decide
  · exact visible_of_mem_quoteChars h
  · decide
  · decide
  · exact visible_of_mem_itemsChars h
  · decide
  · decide

theorem head?_text (record : Record) : record.text.toList.head? = some '{' := by
  rw [toList_text]
  rfl

theorem getLast?_text (record : Record) : record.text.toList.getLast? = some '}' := by
  have hback : record.text.toList = ('{' :: (quoteChars "key" ++ ':' :: (quoteChars record.key ++
      ',' :: (quoteChars "dependencies" ++ ':' :: listChars record.dependencies)))) ++ ['}'] := by
    rw [toList_text, bodyChars]
    simp
  rw [hback, List.getLast?_concat]

/-- The text of a record is a line, and trimming leaves it as it is. -/
theorem isLine_text (record : Record) : Text.IsLine record.text := by
  refine ⟨fun hmem => visible_of_mem_text hmem (by decide), ?_⟩
  rw [getLast?_text]
  decide

theorem isTrimmed_text (record : Record) : Text.IsTrimmed record.text := by
  constructor
  · rw [head?_text]
    rintro ch ⟨⟩
    rfl
  · rw [getLast?_text]
    rintro ch ⟨⟩
    rfl

end BindingGraph.Record
