import BindingGraph.Decimal.Natural
import Mathlib.Data.List.Basic
import Mathlib.Tactic.SplitIfs

/-!
# Numerals

Digits are read as the number that they denote in base ten, however many zeros stand in front, and
nothing but digits is read (`digits?_ten_eq_some_iff`). The numbers of sixty-four bits are then
exactly those that numerals denote, and a number too large is none at all (`word?_eq_some_iff`).
Each number is denoted by its own digits (`digits?_toDigits`).
-/

namespace BindingGraph.Decimal

variable {c : Char} {cs digits : List Char} {value : Nat}

/-! ## Digits in base ten -/

theorem digitIn?_ten_of_isDigit (h : c.isDigit = true) :
    digitIn? 10 c = some (c.toNat - '0'.toNat) := by
  rw [Char.isDigit_iff_toNat] at h
  have hrange : '0' ≤ c ∧ c ≤ '9' := h
  have hzero : '0'.toNat = 48 := rfl
  have hnine : '9'.toNat = 57 := rfl
  rw [digitIn?, if_pos hrange, Option.filter_some, if_pos (decide_eq_true (by omega))]

/-- Letters stand for digits of larger bases only. -/
theorem digitIn?_ten_of_not_isDigit (h : ¬ c.isDigit = true) : digitIn? 10 c = none := by
  have hrange : ¬ ('0' ≤ c ∧ c ≤ '9') := fun hrange => h (Char.isDigit_iff_toNat.mpr hrange)
  rw [digitIn?, if_neg hrange]
  split_ifs
  · rw [Option.filter_some, if_neg (by simp)]
  · rw [Option.filter_some, if_neg (by simp)]
  · rfl

theorem digitsFrom?_ten_eq_some_iff {acc : Nat} :
    digitsFrom? 10 acc cs = some value ↔
      (∀ c ∈ cs, c.isDigit = true) ∧ Nat.ofDigitChars 10 cs acc = value := by
  induction cs generalizing acc with
  | nil => simp [digitsFrom?]
  | cons c cs ih =>
    rw [digitsFrom?, List.forall_mem_cons]
    by_cases hc : c.isDigit = true
    · rw [digitIn?_ten_of_isDigit hc, Nat.ofDigitChars_cons, and_iff_right hc]
      exact ih
    · rw [digitIn?_ten_of_not_isDigit hc]
      exact iff_of_false (by simp) fun h => hc h.1.1

theorem digits?_ten_eq_some_iff :
    digits? 10 cs = some value ↔
      cs ≠ [] ∧ (∀ c ∈ cs, c.isDigit = true) ∧ Nat.ofDigitChars 10 cs 0 = value := by
  rw [digits?]
  split_ifs with hempty
  · exact iff_of_false (by simp) fun h => h.1 (List.isEmpty_iff.mp hempty)
  · rw [digitsFrom?_ten_eq_some_iff, and_iff_right (fun hnil => hempty (List.isEmpty_iff.mpr hnil))]

theorem isDigit_of_mem_toDigits (h : c ∈ Nat.toDigits 10 value) : c.isDigit = true :=
  Nat.isDigit_of_mem_toDigits (by decide) (by decide) h

/-- A number has one digit or more. -/
theorem exists_toDigits_eq_cons (value : Nat) :
    ∃ c rest, Nat.toDigits 10 value = c :: rest ∧ ∀ d ∈ c :: rest, d.isDigit = true := by
  obtain ⟨c, rest, hdigits⟩ :=
    List.exists_cons_of_ne_nil (Nat.toDigits_ne_nil (b := 10) (n := value))
  refine ⟨c, rest, hdigits, ?_⟩
  intro d hd
  rw [← hdigits] at hd
  exact isDigit_of_mem_toDigits hd

theorem isDigit_of_mem_toString (h : c ∈ (toString value).toList) : c.isDigit = true := by
  rw [Nat.toString_eq_ofList_toDigits, String.toList_ofList] at h
  exact isDigit_of_mem_toDigits h

/-- A number is what its own digits denote. -/
theorem digits?_toDigits (value : Nat) : digits? 10 (Nat.toDigits 10 value) = some value :=
  digits?_ten_eq_some_iff.mpr
    ⟨Nat.toDigits_ne_nil, fun _ => isDigit_of_mem_toDigits, Nat.ofDigitChars_ten_toDigits⟩

/-! ## Numerals with a sign -/

/-- `IsNumeral cs value`: the characters are one or more digits that denote the value, with or
without a plus sign in front. -/
def IsNumeral (cs : List Char) (value : Nat) : Prop :=
  ∃ digits, (cs = digits ∨ cs = '+' :: digits) ∧ digits ≠ [] ∧ (∀ c ∈ digits, c.isDigit = true) ∧
    Nat.ofDigitChars 10 digits 0 = value

theorem dropPlus_of_digits (h : ∀ c ∈ digits, c.isDigit = true) : dropPlus digits = digits := by
  unfold dropPlus
  split
  · exact absurd (h '+' List.mem_cons_self) (by decide)
  · rfl

theorem digits?_dropPlus_eq_some_iff :
    digits? 10 (dropPlus cs) = some value ↔ IsNumeral cs value := by
  constructor
  · intro h
    refine ⟨dropPlus cs, ?_, digits?_ten_eq_some_iff.mp h⟩
    unfold dropPlus
    split
    · exact .inr rfl
    · exact .inl rfl
  · rintro ⟨digits, rfl | rfl, h⟩
    · rw [dropPlus_of_digits h.2.1]
      exact digits?_ten_eq_some_iff.mpr h
    · exact digits?_ten_eq_some_iff.mpr h

/-- The numbers of sixty-four bits are read, and no others. -/
theorem word?_eq_some_iff {text : String} :
    word? text = some value ↔ IsNumeral text.toList value ∧ value ≤ maxWord := by
  rw [word?, Option.filter_eq_some_iff, digits?_dropPlus_eq_some_iff, decide_eq_true_eq]

theorem isNumeral_toString (value : Nat) : IsNumeral (toString value).toList value := by
  rw [Nat.toString_eq_ofList_toDigits, String.toList_ofList]
  exact ⟨_, .inl rfl, digits?_ten_eq_some_iff.mp (digits?_toDigits value)⟩

/-- Characters denote one number at most. -/
theorem IsNumeral.unique {other : Nat} (h : IsNumeral cs value) (h' : IsNumeral cs other) :
    value = other := by
  rw [← digits?_dropPlus_eq_some_iff] at h h'
  rw [h] at h'
  exact Option.some_inj.mp h'

end BindingGraph.Decimal
