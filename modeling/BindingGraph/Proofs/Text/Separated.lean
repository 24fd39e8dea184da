import BindingGraph.Text.Separated
import Mathlib.Data.List.Infix

/-!
# Cuts at the leftmost separators

A text is cut at its leftmost separators that do not overlap (`LeftmostCut`): no separator
begins within a part, not even one that runs on into what follows. Splitting does exactly this
(`splitChars_eq_iff`). Parts that are joined come apart again as they were if and only if none
of them holds the separator and none but the last has one begin in it when the separator
follows (`splitChars_intercalate_iff`). A text that is taken apart is joined to itself again in
any case (`intercalate_splitOn`).
-/

namespace BindingGraph.Text

variable {sep part rest cs : List Char} {parts : List (List Char)}

/-- No separator begins in `part` when `rest` stands behind it. -/
def Clear (sep part rest : List Char) : Prop :=
  ∀ after, after <:+ part → after ≠ [] → ¬ sep <+: after ++ rest

/-- `LeftmostCut sep cs parts`: the parts of `cs` between its leftmost separators that do
not overlap. -/
inductive LeftmostCut (sep : List Char) : List Char → List (List Char) → Prop
  | last {part : List Char} (hclear : Clear sep part []) : LeftmostCut sep part [part]
  | cut {part rest : List Char} {parts : List (List Char)} (hclear : Clear sep part (sep ++ rest))
      (hrest : LeftmostCut sep rest parts) : LeftmostCut sep (part ++ (sep ++ rest)) (part :: parts)

/-! ## Where separators begin -/

theorem clear_nil (sep rest : List Char) : Clear sep [] rest := by
  intro after hafter hne
  exact absurd (List.suffix_nil.mp hafter) hne

theorem clear_cons_iff {c : Char} :
    Clear sep (c :: part) rest ↔ ¬ sep <+: c :: (part ++ rest) ∧ Clear sep part rest := by
  constructor
  · intro h
    refine ⟨h _ List.suffix_rfl (List.cons_ne_nil _ _), ?_⟩
    intro after hafter
    exact h after (hafter.trans (List.suffix_cons c part))
  · rintro ⟨hfirst, h⟩ after hafter hne
    rcases List.suffix_cons_iff.mp hafter with rfl | hafter
    · exact hfirst
    · exact h after hafter hne

/-- A character more belongs to the part if no separator begins with it. -/
theorem Clear.concat {c : Char} (h : Clear sep part (c :: cs)) (hc : ¬ sep <+: c :: cs) :
    Clear sep (part ++ [c]) cs := by
  intro after hafter hne
  rcases List.suffix_concat_iff.mp hafter with rfl | ⟨front, rfl, hfront⟩
  · exact absurd rfl hne
  · rw [List.append_assoc]
    by_cases hempty : front = []
    · rw [hempty]
      exact hc
    · exact h front hfront hempty

/-- At the end of the text nothing can follow. -/
theorem clear_end_iff (hsep : sep ≠ []) : Clear sep part [] ↔ ¬ sep <:+: part := by
  constructor
  · rintro h ⟨before, behind, rfl⟩
    refine h (sep ++ behind) ?_ (by simp [hsep]) ?_
    · rw [List.append_assoc]
      exact List.suffix_append _ _
    · rw [List.append_nil]
      exact List.prefix_append _ _
  · rintro h after ⟨before, rfl⟩ - ⟨behind, hbehind⟩
    refine h ⟨before, behind, ?_⟩
    rw [List.append_assoc, hbehind, List.append_nil]

/-- Before a separator another one may begin in the part that ends in the first. -/
theorem clear_sep_iff (hsep : sep ≠ []) :
    Clear sep part (sep ++ rest) ↔ ¬ sep <:+: part ++ sep.dropLast := by
  have hlength : sep.dropLast.length + 1 = sep.length := by
    have := List.length_pos_iff.mpr hsep
    rw [List.length_dropLast]
    omega
  have hfront (after : List Char) : after ++ sep.dropLast <+: after ++ (sep ++ rest) :=
    (List.prefix_append_right_inj after).mpr
      ((List.dropLast_prefix sep).trans (List.prefix_append _ _))
  constructor
  · rintro h ⟨before, behind, heq⟩
    -- What comes to lie in the part is not all of it, as the separator is longer than what it ends
    -- in.
    have hlengths := congrArg List.length heq
    simp only [List.length_append] at hlengths
    obtain ⟨after, rfl⟩ : before <+: part := by
      refine List.prefix_of_prefix_length_le ?_ (List.prefix_append part sep.dropLast) (by omega)
      rw [← heq, List.append_assoc]
      exact List.prefix_append _ _
    have hne : after ≠ [] := by
      rintro rfl
      simp only [List.append_nil] at hlengths
      omega
    rw [List.append_assoc, List.append_assoc, List.append_cancel_left_eq] at heq
    exact h after (List.suffix_append _ _) hne ((heq ▸ List.prefix_append _ _).trans (hfront after))
  · rintro h after ⟨before, rfl⟩ hne hstarts
    have hpos := List.length_pos_iff.mpr hne
    obtain ⟨behind, hbehind⟩ : sep <+: after ++ sep.dropLast := by
      refine List.prefix_of_prefix_length_le hstarts (hfront after) ?_
      rw [List.length_append]
      omega
    refine h ⟨before, behind, ?_⟩
    rw [List.append_assoc, hbehind, List.append_assoc]

/-! ## Splitting -/

theorem splitChars_of_clear (h : Clear sep cs rest) (part : List Char) :
    splitChars sep part (cs ++ rest) = splitChars sep (cs.reverse ++ part) rest := by
  induction cs generalizing part with
  | nil => rfl
  | cons c cs ih =>
    obtain ⟨hfirst, h⟩ := clear_cons_iff.mp h
    have hnot : ¬ (sep ≠ [] ∧ sep.isPrefixOf (c :: (cs ++ rest)) = true) :=
      fun hstarts => hfirst (List.isPrefixOf_iff_prefix.mp hstarts.2)
    rw [List.cons_append, splitChars, if_neg hnot, ih h, List.reverse_cons, List.append_assoc]
    rfl

theorem splitChars_sep (hsep : sep ≠ []) (part rest : List Char) :
    splitChars sep part (sep ++ rest) = part.reverse :: splitChars sep [] rest := by
  obtain ⟨c, tail, rfl⟩ := List.exists_cons_of_ne_nil hsep
  have hstarts : c :: tail ≠ [] ∧ (c :: tail).isPrefixOf (c :: (tail ++ rest)) = true :=
    ⟨hsep, List.isPrefixOf_iff_prefix.mpr (List.prefix_append _ _)⟩
  rw [List.cons_append, splitChars, if_pos hstarts]
  simp

/-- The part under construction is kept in reverse, and no separator has begun in it. -/
theorem leftmostCut_splitChars (hsep : sep ≠ []) (part cs : List Char)
    (h : Clear sep part.reverse cs) :
    LeftmostCut sep (part.reverse ++ cs) (splitChars sep part cs) := by
  fun_induction splitChars sep part cs with
  | case1 part =>
    rw [List.append_nil]
    exact .last h
  | case2 part c rest hstarts ih =>
    obtain ⟨tail, htail⟩ := List.isPrefixOf_iff_prefix.mp hstarts.2
    have hdrop : rest.drop (sep.length - 1) = tail := by
      obtain ⟨d, front, rfl⟩ := List.exists_cons_of_ne_nil hsep
      rw [← (List.cons.inj htail).2]
      simp
    rw [hdrop] at ih ⊢
    rw [← htail] at h ⊢
    exact .cut h (ih (clear_nil _ _))
  | case3 part c rest hstarts ih =>
    have hnot : ¬ sep <+: c :: rest := fun hprefix =>
      hstarts ⟨hsep, List.isPrefixOf_iff_prefix.mpr hprefix⟩
    rw [List.reverse_cons, List.append_assoc] at ih
    exact ih (h.concat hnot)

theorem LeftmostCut.splitChars_eq (hsep : sep ≠ []) (h : LeftmostCut sep cs parts) :
    splitChars sep [] cs = parts := by
  induction h with
  | @last part hclear =>
    have hsplit := splitChars_of_clear hclear []
    rw [List.append_nil, List.append_nil] at hsplit
    rw [hsplit, splitChars, List.reverse_reverse]
  | @cut part rest parts hclear hrest ih =>
    rw [splitChars_of_clear hclear, splitChars_sep hsep, ih, List.append_nil, List.reverse_reverse]

/-- Splitting is cutting at the leftmost separators, for which there is only one way. -/
theorem splitChars_eq_iff (hsep : sep ≠ []) :
    splitChars sep [] cs = parts ↔ LeftmostCut sep cs parts := by
  constructor
  · rintro rfl
    exact leftmostCut_splitChars hsep [] cs (clear_nil sep cs)
  · exact LeftmostCut.splitChars_eq hsep

/-! ## Joining -/

theorem LeftmostCut.ne_nil (h : LeftmostCut sep cs parts) : parts ≠ [] := by
  cases h with
  | last => exact List.cons_ne_nil _ _
  | cut => exact List.cons_ne_nil _ _

theorem leftmostCut_singleton_iff : LeftmostCut sep cs [part] ↔ cs = part ∧ Clear sep part [] := by
  constructor
  · intro h
    cases h with
    | last hclear => exact ⟨rfl, hclear⟩
    | cut hclear hrest => exact absurd rfl hrest.ne_nil
  · rintro ⟨rfl, hclear⟩
    exact .last hclear

theorem leftmostCut_cons_cons_iff {next : List Char} :
    LeftmostCut sep cs (part :: next :: parts) ↔
      ∃ rest, cs = part ++ (sep ++ rest) ∧ Clear sep part (sep ++ rest) ∧
        LeftmostCut sep rest (next :: parts) := by
  constructor
  · intro h
    cases h with
    | cut hclear hrest => exact ⟨_, rfl, hclear, hrest⟩
  · rintro ⟨rest, rfl, hclear, hrest⟩
    exact .cut hclear hrest

/-- Parts that stand one behind the other with separators between them come apart as they were if
and only if the last one holds no separator and no other one does so together with the beginning of
the separator behind it. -/
theorem splitChars_intercalate_iff (hsep : sep ≠ []) :
    splitChars sep [] (sep.intercalate parts) = parts ↔
      parts ≠ [] ∧ (∀ part ∈ parts.getLast?, ¬ sep <:+: part) ∧
        ∀ part ∈ parts.dropLast, ¬ sep <:+: part ++ sep.dropLast := by
  rw [splitChars_eq_iff hsep]
  induction parts with
  | nil =>
    constructor
    · intro h
      exact absurd rfl h.ne_nil
    · rintro ⟨hne, -⟩
      exact absurd rfl hne
  | cons part parts ih =>
    cases parts with
    | nil =>
      rw [List.intercalate_singleton, leftmostCut_singleton_iff, clear_end_iff hsep]
      simp
    | cons next parts =>
      have hjoined : LeftmostCut sep (sep.intercalate (part :: next :: parts))
          (part :: next :: parts) ↔
          ¬ sep <:+: part ++ sep.dropLast ∧
            LeftmostCut sep (sep.intercalate (next :: parts)) (next :: parts) := by
        rw [List.intercalate_cons_cons, List.append_assoc, leftmostCut_cons_cons_iff,
          ← clear_sep_iff hsep]
        constructor
        · rintro ⟨rest, heq, hclear, hrest⟩
          obtain rfl := List.append_cancel_left (List.append_cancel_left heq)
          exact ⟨hclear, hrest⟩
        · rintro ⟨hclear, hrest⟩
          exact ⟨_, rfl, hclear, hrest⟩
      rw [hjoined, ih, List.getLast?_cons_cons, List.dropLast_cons_cons, List.forall_mem_cons]
      simp only [ne_eq, reduceCtorEq, not_false_eq_true, true_and]
      exact and_left_comm

/-! ## Whole texts -/

theorem splitOn_of_not_infix {separator text : String} (hsep : separator.toList ≠ [])
    (h : ¬ separator.toList <:+: text.toList) : splitOn separator text = [text] := by
  rw [splitOn, (splitChars_eq_iff hsep).mpr (.last ((clear_end_iff hsep).mpr h)),
    List.map_singleton, String.ofList_toList]

/-- A text is its parts with the separators between them. -/
theorem intercalate_splitOn (separator text : String) :
    separator.intercalate (splitOn separator text) = text := by
  rw [String.ext_iff, String.toList_intercalate]
  exact join_splitOn separator text

/-- What is in a part is in the text that it is joined to. -/
theorem mem_intercalate_of_mem {separator part : String} {parts : List String} {ch : Char}
    (hpart : part ∈ parts) (h : ch ∈ part.toList) : ch ∈ (separator.intercalate parts).toList := by
  induction parts with
  | nil => cases hpart
  | cons first rest ih =>
    cases rest with
    | nil =>
      rw [String.intercalate_singleton]
      exact List.mem_singleton.mp hpart ▸ h
    | cons second rest =>
      rw [String.intercalate_cons_cons, String.toList_append, List.mem_append]
      rcases List.mem_cons.mp hpart with rfl | hpart
      · left
        rw [String.toList_append]
        exact List.mem_append_left _ h
      · exact .inr (ih hpart)

end BindingGraph.Text
