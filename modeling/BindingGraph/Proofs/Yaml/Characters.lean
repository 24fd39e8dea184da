import BindingGraph.Yaml.Cursor
import BindingGraph.Yaml.Writing
import Mathlib.Data.List.Basic
import Mathlib.Tactic.SplitIfs

/-!
# Characters that are written and read

A character that may stand unescaped may stand in a text, and it is no line end of another system
(`unifyBreaks_eq_self`), so what has been written is read character by character. Along characters
that end no line the place moves on by one column for each (`Place.column_after`).
-/

namespace BindingGraph.Yaml

variable {c : Char} {cs tail : List Char} {place : Place}

/-! ## Sorts of characters -/

theorem isBreak_iff : isBreak c = true ↔ c = '\n' ∨ c = '\u2028' ∨ c = '\u2029' := by
  simp [isBreak, or_assoc]

theorem isPad_iff : isPad c = true ↔ c = ' ' ∨ c = '\t' := by
  simp [isPad]

theorem isSpace_iff : isSpace c = true ↔ c = ' ' := by
  simp [isSpace]

theorem not_isBreak_of_isPad (h : isPad c = true) : isBreak c = false := by
  rcases isPad_iff.mp h with rfl | rfl <;> decide

/-- Of the two blank characters only the space is written as it is. -/
theorem isPad_eq_isSpace (h : isWritable c = true) : isPad c = isSpace c := by
  rw [Bool.eq_iff_iff, isPad_iff, isSpace_iff]
  refine or_iff_left ?_
  rintro rfl
  exact absurd h (by decide)

theorem isAllowed_of_isWritable (h : isWritable c = true) : isAllowed c = true := by
  simp only [isWritable, isAllowed, Bool.or_eq_true, Bool.and_eq_true, decide_eq_true_eq,
    beq_iff_eq] at h ⊢
  omega

theorem ne_of_isWritable {d : Char} (h : isWritable c = true) (hd : isWritable d = false) :
    c ≠ d := by
  rintro rfl
  rw [h] at hd
  cases hd

/-- A text of such characters has only line feeds where others have carriage returns. -/
theorem unifyBreaks_eq_self (h : ∀ c ∈ cs, isWritable c = true) : unifyBreaks cs = cs := by
  induction cs with
  | nil => rfl
  | cons c cs ih =>
    have hreturn : c ≠ '\r' := ne_of_isWritable (h c List.mem_cons_self) (by decide)
    have hnext : c ≠ '\x85' := ne_of_isWritable (h c List.mem_cons_self) (by decide)
    have hrest := ih fun d hd => h d (List.mem_cons_of_mem _ hd)
    rw [unifyBreaks]
    · rw [if_neg (by simp [hreturn, hnext]), hrest]
    · rintro rest rfl
      exact absurd rfl hreturn

/-! ## Words -/

/-- A letter or a digit, or another character that may stand in the name of a field. -/
theorem toNat_of_isNameChar (h : isNameChar c = true) :
    (48 ≤ c.toNat ∧ c.toNat ≤ 57) ∨ (65 ≤ c.toNat ∧ c.toNat ≤ 90) ∨ (97 ≤ c.toNat ∧ c.toNat ≤ 122) ∨
      c.toNat = 95 ∨ c.toNat = 45 := by
  rw [isNameChar, Bool.or_eq_true, Bool.or_eq_true, beq_iff_eq, beq_iff_eq] at h
  rcases h with (halphanum | rfl) | rfl
  · delta Char.isAlphanum Char.isAlpha Char.isUpper Char.isLower Char.isDigit at halphanum
    simp only [Bool.or_eq_true, Bool.and_eq_true, decide_eq_true_eq, UInt32.le_iff_toNat_le,
      ge_iff_le] at halphanum
    have hc : c.val.toNat = c.toNat := rfl
    have hdigits : '0'.val.toNat = 48 ∧ '9'.val.toNat = 57 := ⟨rfl, rfl⟩
    have hupper : 'A'.val.toNat = 65 ∧ 'Z'.val.toNat = 90 := ⟨rfl, rfl⟩
    have hlower : 'a'.val.toNat = 97 ∧ 'z'.val.toNat = 122 := ⟨rfl, rfl⟩
    omega
  · decide
  · decide

theorem ne_of_isNameChar {d : Char} (h : isNameChar c = true) (hd : isNameChar d = false) :
    c ≠ d := by
  rintro rfl
  rw [h] at hd
  cases hd

theorem not_isPad_of_isNameChar (h : isNameChar c = true) : isPad c = false := by
  rw [Bool.eq_false_iff, ne_eq, isPad_iff, not_or]
  exact ⟨ne_of_isNameChar h (by decide), ne_of_isNameChar h (by decide)⟩

theorem not_isSpace_of_isNameChar (h : isNameChar c = true) : isSpace c = false := by
  rw [isSpace, beq_eq_false_iff_ne]
  exact ne_of_isNameChar h (by decide)

theorem not_isBreak_of_isNameChar (h : isNameChar c = true) : isBreak c = false := by
  rw [Bool.eq_false_iff, ne_eq, isBreak_iff, not_or, not_or]
  exact ⟨ne_of_isNameChar h (by decide), ne_of_isNameChar h (by decide),
    ne_of_isNameChar h (by decide)⟩

theorem isWritable_of_isNameChar (h : isNameChar c = true) : isWritable c = true := by
  have hrange := toNat_of_isNameChar h
  simp only [isWritable, Bool.or_eq_true, Bool.and_eq_true, decide_eq_true_eq, beq_iff_eq]
  omega

theorem isNameChar_of_isDigit (h : c.isDigit = true) : isNameChar c = true := by
  simp [isNameChar, Char.isAlphanum, h]

theorem endsWord_of_append (h : endsWord (cs ++ tail) = true) : endsWord cs = true := by
  cases cs with
  | nil => rfl
  | cons c cs => exact h

theorem not_startsDocument (h : c ≠ '-') : startsDocument (c :: cs) = false := by
  unfold startsDocument
  split
  · rename_i heq
    exact absurd (List.cons.inj heq).1 h
  · rfl

theorem not_endsDocument (h : c ≠ '.') : endsDocument (c :: cs) = false := by
  unfold endsDocument
  split
  · rename_i heq
    exact absurd (List.cons.inj heq).1 h
  · rfl

/-! ## Places -/

theorem Place.after_cons (place : Place) (c : Char) (cs : List Char) :
    place.after (c :: cs) = (place.next c).after cs := rfl

theorem Place.after_append (place : Place) (cs tail : List Char) :
    place.after (cs ++ tail) = (place.after cs).after tail := List.foldl_append

theorem Place.column_next_of_isBreak (h : isBreak c = true) : (place.next c).column = 0 := by
  rw [Place.next, if_pos h]

theorem Place.column_next (h : isBreak c = false) : (place.next c).column = place.column + 1 := by
  rw [Place.next, if_neg (by simp [h])]

theorem Place.column_after (h : ∀ c ∈ cs, isBreak c = false) :
    (place.after cs).column = place.column + cs.length := by
  induction cs generalizing place with
  | nil => rfl
  | cons c cs ih =>
    rw [List.forall_mem_cons] at h
    rw [Place.after_cons, ih h.2, Place.column_next h.1, List.length_cons]
    omega

theorem Place.line_after (h : ∀ c ∈ cs, isBreak c = false) :
    (place.after cs).line = place.line := by
  induction cs generalizing place with
  | nil => rfl
  | cons c cs ih =>
    rw [List.forall_mem_cons] at h
    rw [Place.after_cons, ih h.2, Place.next, if_neg (by simp [h.1])]

theorem Place.index_after_le (place : Place) (cs : List Char) :
    (place.after cs).index ≤ place.index + 4 * cs.length := by
  induction cs generalizing place with
  | nil => exact Nat.le_refl _
  | cons c cs ih =>
    have hnext : (place.next c).index ≤ place.index + 4 := by
      have hsize := c.utf8Size_le_four
      unfold Place.next
      split_ifs <;> exact Nat.add_le_add_left hsize _
    have hrest := ih (place.next c)
    rw [Place.after_cons, List.length_cons]
    omega

end BindingGraph.Yaml
