import BindingGraph.Console.Values
import BindingGraph.Proofs.Decimal.Numerals
import BindingGraph.Proofs.Text.Lines
import Mathlib.Algebra.Group.Nat.Defs
import Mathlib.Tactic.Tauto

/-!
# Time limits on the command line

A time limit is accepted exactly if it denotes a positive number of sixty-four bits, which is
then the limit; zero is refused with a message of its own, and every other text with one that
quotes it (`readMillis_by_value`).
-/

namespace BindingGraph.Console

open Decimal (IsNumeral)

variable {text : String} {value : Nat}

/-- `Denotes text value`: the text is a numeral of the value with nothing around it but
blank characters. -/
def Denotes (text : String) (value : Nat) : Prop :=
  ∃ before core after : List Char, text.toList = before ++ core ++ after ∧
    (∀ c ∈ before ++ after, Text.isBlank c = true) ∧ IsNumeral core value

/-- Neither signs nor digits are blank. -/
theorem isTrimmed_of_isNumeral {core : List Char} (h : IsNumeral core value) :
    Text.IsTrimmed (String.ofList core) := by
  obtain ⟨digits, hcore, -, hdigits, -⟩ := h
  have hshown : ∀ c ∈ core, Text.isBlank c = false := by
    intro c hc
    have hchar : c = '+' ∨ c.isDigit = true := by
      rcases hcore with rfl | rfl
      · exact .inr (hdigits c hc)
      · exact (List.mem_cons.mp hc).imp id (hdigits c)
    have hbounds : 43 ≤ c.toNat ∧ c.toNat ≤ 57 := by
      rcases hchar with rfl | hdigit
      · decide
      · have hzero : '0'.toNat = 48 := rfl
        have hnine : '9'.toNat = 57 := rfl
        rw [Char.isDigit_iff_toNat] at hdigit
        omega
    simp only [Text.isBlank, Bool.or_eq_false_iff, Bool.and_eq_false_iff, decide_eq_false_iff_not,
      beq_eq_false_iff_ne]
    omega
  constructor
  · intro c hc
    rw [String.toList_ofList] at hc
    exact hshown c (List.mem_of_head? hc)
  · intro c hc
    rw [String.toList_ofList] at hc
    exact hshown c (List.mem_of_getLast? hc)

/-- What is left of a text when it is trimmed is what it denotes. -/
theorem isNumeral_trim_iff : IsNumeral (Text.trim text).toList value ↔ Denotes text value := by
  constructor
  · intro h
    obtain ⟨-, before, after, htext, hbefore, hafter⟩ :=
      Text.trim_eq_iff.mp (rfl : Text.trim text = _)
    refine ⟨before, _, after, htext, ?_, h⟩
    exact fun c hc => (List.mem_append.mp hc).elim (hbefore c) (hafter c)
  · rintro ⟨before, core, after, htext, hblank, h⟩
    have htrim : Text.trim text = String.ofList core := by
      refine Text.trim_eq_iff.mpr ⟨isTrimmed_of_isNumeral h, before, after, ?_, ?_, ?_⟩
      · rwa [String.toList_ofList]
      · exact fun c hc => hblank c (List.mem_append_left _ hc)
      · exact fun c hc => hblank c (List.mem_append_right _ hc)
    rw [htrim, String.toList_ofList]
    exact h

theorem word?_trim_eq_some_iff :
    Decimal.word? (Text.trim text) = some value ↔ Denotes text value ∧ value ≤ Decimal.maxWord := by
  rw [Decimal.word?_eq_some_iff, isNumeral_trim_iff]

theorem Denotes.unique {other : Nat} (h : Denotes text value) (h' : Denotes text other) :
    value = other :=
  (isNumeral_trim_iff.mpr h).unique (isNumeral_trim_iff.mpr h')

/-- What a text is read as: the limit, or the message for the refusal. -/
def millisReply (text : String) : Except String Nat := (readMillis text).mapError ValueError.message

/-- The message for a text that is no limit. -/
def notMillisMessage (text : String) : String :=
  "Invalid timeout '" ++ text ++ "': expected a whole number of milliseconds"

/-- The message for a limit of zero. -/
def zeroMillisMessage : String := "Timeout must be greater than 0 milliseconds"

theorem toList_notMillisMessage (text : String) :
    (notMillisMessage text).toList =
      "Invalid timeout '".toList ++ text.toList ++
      "': expected a whole number of milliseconds".toList := by
  show ("Invalid timeout '" ++ text ++ "': expected a whole number of milliseconds").toList = _
  rw [String.toList_append, String.toList_append]

theorem head?_notMillisMessage (text : String) :
    (notMillisMessage text).toList.head? = some 'I' := by
  have hfirst : "Invalid timeout '".toList = 'I' :: "nvalid timeout '".toList := by decide
  rw [toList_notMillisMessage, hfirst]
  rfl

theorem notMillisMessage_ne : notMillisMessage text ≠ zeroMillisMessage := by
  intro h
  have hfirst := head?_notMillisMessage text
  rw [h] at hfirst
  exact absurd hfirst (by decide)

/-- The three outcomes, told by the number that is read. -/
theorem millisReply_eq (text : String) :
    millisReply text =
      match Decimal.word? (Text.trim text) with
      | some 0 => .error zeroMillisMessage
      | some millis => .ok millis
      | none => .error (notMillisMessage text) := by
  rw [millisReply, readMillis]
  cases Decimal.word? (Text.trim text) with
  | none => rfl
  | some millis =>
    cases millis with
    | zero => rfl
    | succ millis => rfl

/-- A text is accepted as what it is answered with. -/
theorem readMillis_eq_ok_iff {millis : Nat} :
    readMillis text = .ok millis ↔ millisReply text = .ok millis := by
  rw [millisReply]
  cases readMillis text with
  | error error => simp [Except.mapError]
  | ok limit => simp [Except.mapError]

theorem millisReply_eq_ok_iff {millis : Nat} :
    millisReply text = .ok millis ↔ Decimal.word? (Text.trim text) = some millis ∧ 1 ≤ millis := by
  rw [millisReply_eq]
  rcases Decimal.word? (Text.trim text) with _ | _ | limit
  · simp
  · simp
    omega
  · simp
    omega

theorem millisReply_eq_zero_iff :
    millisReply text = .error zeroMillisMessage ↔ Decimal.word? (Text.trim text) = some 0 := by
  rw [millisReply_eq]
  rcases Decimal.word? (Text.trim text) with _ | _ | limit
  · simp [notMillisMessage_ne]
  · simp
  · simp

theorem millisReply_eq_notMillis_iff :
    millisReply text = .error (notMillisMessage text) ↔ Decimal.word? (Text.trim text) = none := by
  rw [millisReply_eq]
  rcases Decimal.word? (Text.trim text) with _ | _ | limit
  · simp
  · simp [notMillisMessage_ne.symm]
  · simp

/-- **The accepted limits.** A text is accepted exactly if it denotes a positive number of
sixty-four bits, with blank characters around it or not; it is refused as zero exactly if it denotes
zero, and otherwise as no number, as it was given. So each positive number is read back from its
decimal digits. -/
theorem readMillis_by_value :
    (∀ (text : String) (millis : Nat),
      readMillis text = .ok millis ↔ Denotes text millis ∧ 1 ≤ millis ∧ millis ≤ 2 ^ 64 - 1) ∧
    (∀ text : String, millisReply text = .error zeroMillisMessage ↔ Denotes text 0) ∧
    (∀ text : String, millisReply text = .error (notMillisMessage text) ↔
      ¬ ∃ value, Denotes text value ∧ value ≤ 2 ^ 64 - 1) ∧
    ∀ (before after : List Char) (millis : Nat), (∀ c ∈ before ++ after, Text.isBlank c = true) →
      1 ≤ millis → millis ≤ 2 ^ 64 - 1 →
      readMillis (String.ofList before ++ toString millis ++ String.ofList after) = .ok millis := by
  have hmax : Decimal.maxWord = 2 ^ 64 - 1 := by decide
  have hok (text : String) (millis : Nat) :
      readMillis text = .ok millis ↔ Denotes text millis ∧ 1 ≤ millis ∧ millis ≤ 2 ^ 64 - 1 := by
    rw [readMillis_eq_ok_iff, millisReply_eq_ok_iff, word?_trim_eq_some_iff, hmax]
    tauto
  refine ⟨hok, ?_, ?_, ?_⟩
  · intro text
    rw [millisReply_eq_zero_iff, word?_trim_eq_some_iff]
    exact and_iff_left (Nat.zero_le _)
  · intro text
    rw [millisReply_eq_notMillis_iff, Option.eq_none_iff_forall_ne_some]
    simp only [ne_eq, word?_trim_eq_some_iff, hmax, not_exists]
  · intro before after millis hblank hpositive hbound
    refine (hok _ _).mpr ⟨⟨before, (toString millis).toList, after, ?_, hblank, ?_⟩, hpositive,
      hbound⟩
    · rw [String.toList_append, String.toList_append, String.toList_ofList, String.toList_ofList]
    · exact Decimal.isNumeral_toString millis

/-- The largest number behind an ideographic space and before a line end. -/
theorem readMillis_by_value_padded :
    (∀ c ∈ ['\u3000'] ++ ['\r', '\n'], Text.isBlank c = true) ∧ 1 ≤ 18446744073709551615 ∧
    readMillis (String.ofList ['\u3000'] ++ toString 18446744073709551615 ++
      String.ofList ['\r', '\n']) =
      .ok 18446744073709551615 :=
  ⟨List.all_eq_true.mp (by decide), by decide,
    readMillis_by_value.2.2.2 ['\u3000'] ['\r', '\n'] 18446744073709551615
      (List.all_eq_true.mp (by decide))
      (by decide) (by decide)⟩

end BindingGraph.Console
