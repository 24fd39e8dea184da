/-!
# Texts cut at a separator

`splitOn sep text` cuts `text` at the leftmost occurrences of `sep` that do not overlap. Joining the
parts with `sep` gives the text back (`join_splitOn`).
-/

namespace BindingGraph.Text

/-- The parts of `cs` between the leftmost occurrences of `sep`. The part under construction is kept
in reverse in `part`. -/
def splitChars (sep : List Char) (part : List Char) (cs : List Char) : List (List Char) :=
  match cs with
  | [] => [part.reverse]
  | c :: rest =>
    if sep ≠ [] ∧ sep.isPrefixOf (c :: rest) then
      part.reverse :: splitChars sep [] (rest.drop (sep.length - 1))
    else
      splitChars sep (c :: part) rest
termination_by cs.length
decreasing_by
  · simp only [List.length_drop, List.length_cons]; omega
  · simp

/-- The parts of `text` between the leftmost occurrences of `sep` that do not overlap. -/
def splitOn (sep text : String) : List String :=
  (splitChars sep.toList [] text.toList).map String.ofList

/-- There is always at least one part. -/
theorem splitChars_ne_nil (sep part cs : List Char) : splitChars sep part cs ≠ [] := by
  fun_induction splitChars sep part cs with
  | case1 => simp
  | case2 => simp
  | case3 part c rest h ih => exact ih

/-- Nothing is lost: the parts joined with the separator are the text. -/
theorem join_splitChars (sep part cs : List Char) :
    sep.intercalate (splitChars sep part cs) = part.reverse ++ cs := by
  fun_induction splitChars sep part cs with
  | case1 part => simp [List.intercalate]
  | case2 part c rest h ih =>
    obtain ⟨tail, htail⟩ := List.isPrefixOf_iff_prefix.mp h.2
    have hlen : 0 < sep.length := List.length_pos_iff.mpr h.1
    have hdrop : rest.drop (sep.length - 1) = tail := by
      have : (c :: rest).drop sep.length = tail := by rw [← htail]; simp
      obtain ⟨k, hk⟩ : ∃ k, sep.length = k + 1 := ⟨sep.length - 1, by omega⟩
      rw [hk] at this ⊢
      simpa using this
    rw [hdrop] at ih ⊢
    obtain ⟨first, others, hsplit⟩ : ∃ a b, splitChars sep [] tail = a :: b :=
      List.exists_cons_of_ne_nil (splitChars_ne_nil sep [] tail)
    rw [hsplit] at ih ⊢
    simp only [List.intercalate, List.intersperse_cons_cons, List.flatten_cons] at ih ⊢
    rw [ih, ← htail]
    simp
  | case3 part c rest h ih => simpa using ih

/-- Joining the parts of a text with the separator gives the text back. -/
theorem join_splitOn (sep text : String) :
    sep.toList.intercalate ((splitOn sep text).map String.toList) = text.toList := by
  simpa [splitOn, Function.comp_def] using join_splitChars sep.toList [] text.toList

end BindingGraph.Text
