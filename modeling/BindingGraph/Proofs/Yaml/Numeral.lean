import BindingGraph.Proofs.Decimal.Numerals
import BindingGraph.Proofs.Yaml.Characters
import BindingGraph.Yaml.Numeral

/-!
# Numbers in plain scalars

The digits of a number are one way to write it plain: they have no zero in front (`head?_toDigits`),
announce no other base, and are read as the number if it is within the limit (`natural?_toString`).
They are no spelling of nothing (`not_isNull_toString`).
-/

namespace BindingGraph.Yaml

variable {cs : List Char} {n limit : Nat}

/-- Only zero itself is written with a zero in front. -/
theorem head?_toDigits (h : 0 < n) : (Nat.toDigits 10 n).head? ≠ some '0' := by
  induction n using Nat.strongRecOn with
  | ind n ih =>
    rw [Nat.toDigits_eq_if (by decide)]
    split_ifs with hlt
    · have hall : ∀ n : Fin 10, 0 < n.val → [n.val.digitChar].head? ≠ some '0' := by decide
      exact hall ⟨n, hlt⟩ h
    · rw [List.head?_append_of_ne_nil _ Nat.toDigits_ne_nil]
      exact ih (n / 10) (by omega) (by omega)

theorem hasLeadingZero_toDigits (n : Nat) : hasLeadingZero (Nat.toDigits 10 n) = false := by
  cases n with
  | zero => rfl
  | succ n =>
    have hhead := head?_toDigits n.succ_pos
    unfold hasLeadingZero
    split
    · rename_i heq
      rw [heq] at hhead
      exact absurd rfl hhead
    · rfl

/-- Digits announce no other base. -/
theorem magnitude?_of_digits (h : ∀ c ∈ cs, c.isDigit = true) :
    magnitude? cs = if hasLeadingZero cs then none else Decimal.digits? 10 cs := by
  have hsecond {c : Char} {rest : List Char} (hcs : cs = '0' :: c :: rest) : c.isDigit = true :=
    h c (by simp [hcs])
  unfold magnitude?
  split
  · exact absurd (hsecond rfl) (by decide)
  · exact absurd (hsecond rfl) (by decide)
  · exact absurd (hsecond rfl) (by decide)
  · rfl

/-- A number within the limit is what its digits stand for. -/
theorem natural?_toString (h : n ≤ limit) : natural? limit (toString n).toList = some n := by
  have hdigits : ∀ c ∈ Nat.toDigits 10 n, c.isDigit = true :=
    fun _ => Decimal.isDigit_of_mem_toDigits
  rw [Nat.toString_eq_ofList_toDigits, String.toList_ofList, natural?,
    Decimal.dropPlus_of_digits hdigits, magnitude?_of_digits hdigits, hasLeadingZero_toDigits,
    if_neg Bool.false_ne_true, Decimal.digits?_toDigits, Option.filter_some,
    if_pos (decide_eq_true h)]

/-- A number spells neither nothing nor the empty text. -/
theorem not_isNull_toString (n : Nat) :
    ¬ (toString n = "" ∨ isNull (toString n).toList = true) := by
  obtain ⟨c, rest, hdigits, hall⟩ := Decimal.exists_toDigits_eq_cons n
  have hdigit : c.isDigit = true := hall c List.mem_cons_self
  have hspellings : ["", "null", "Null", "NULL", "~"].all (!·.toList.head?.any Char.isDigit) =
      true := by decide
  have hnone : toString n ∉ ["", "null", "Null", "NULL", "~"] := fun hmem => by
    have hn := List.all_eq_true.mp hspellings _ hmem
    rw [Nat.toString_eq_ofList_toDigits, String.toList_ofList, hdigits, List.head?_cons,
      Option.any_some, hdigit] at hn
    cases hn
  rw [List.mem_cons, not_or] at hnone
  rintro (hempty | hnull)
  · exact hnone.1 hempty
  · rw [isNull, String.ofList_toList] at hnull
    exact hnone.2 (List.contains_iff_mem.mp hnull)

end BindingGraph.Yaml
