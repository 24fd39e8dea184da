import BindingGraph.Text.Utf8

/-!
# Decoding what has been encoded

Every text is read back from its bytes (`decodeUtf8_encodeUtf8`). Each character is read back by
itself, whatever follows it (`decodeFrom_encodeChar`): there is one case for each number of bytes,
in which the first byte says how many there are and the payloads of all are the digits of the
character's number.
-/

namespace BindingGraph.Text

variable {index : Nat} {a b c d : UInt8} {rest : List UInt8}

/-! ## One character's bytes -/

theorem lt_iff_one : a < 0x80 ↔ a.toNat < 0x80 := UInt8.lt_iff_toNat_lt

theorem le_iff_two : (0xC2 ≤ a ∧ a ≤ 0xDF) ↔ 0xC2 ≤ a.toNat ∧ a.toNat ≤ 0xDF :=
  and_congr UInt8.le_iff_toNat_le UInt8.le_iff_toNat_le

theorem le_iff_three : (0xE0 ≤ a ∧ a ≤ 0xEF) ↔ 0xE0 ≤ a.toNat ∧ a.toNat ≤ 0xEF :=
  and_congr UInt8.le_iff_toNat_le UInt8.le_iff_toNat_le

theorem le_iff_four : (0xF0 ≤ a ∧ a ≤ 0xF4) ↔ 0xF0 ≤ a.toNat ∧ a.toNat ≤ 0xF4 :=
  and_congr UInt8.le_iff_toNat_le UInt8.le_iff_toNat_le

theorem decodeFrom_one (ha : a.toNat < 0x80) :
    decodeFrom index (a :: rest) =
      (decodeFrom (index + 1) rest).map (Char.ofNat a.toNat :: ·) := by
  rw [decodeFrom.eq_def]
  simp only [if_pos (lt_iff_one.mpr ha)]

theorem decodeFrom_two (ha : 0xC2 ≤ a.toNat ∧ a.toNat ≤ 0xDF) (hb : isContinuation b) :
    decodeFrom index (a :: b :: rest) =
      (decodeFrom (index + 2) rest).map
        (Char.ofNat (payload 32 a * 64 + payload 64 b) :: ·) := by
  have hone : ¬ a < 0x80 := by
    rw [lt_iff_one]
    omega
  rw [decodeFrom.eq_def]
  simp only [if_neg hone, if_pos (le_iff_two.mpr ha), if_pos hb]

theorem decodeFrom_three (ha : 0xE0 ≤ a.toNat ∧ a.toNat ≤ 0xEF) (hb : fitsFirst a b)
    (hc : isContinuation c) :
    decodeFrom index (a :: b :: c :: rest) =
      (decodeFrom (index + 3) rest).map
        (Char.ofNat ((payload 16 a * 64 + payload 64 b) * 64 + payload 64 c) :: ·) := by
  have hone : ¬ a < 0x80 := by
    rw [lt_iff_one]
    omega
  have htwo : ¬ (0xC2 ≤ a ∧ a ≤ 0xDF) := by
    rw [le_iff_two]
    omega
  rw [decodeFrom.eq_def]
  simp only [if_neg hone, if_neg htwo, if_pos (le_iff_three.mpr ha), hb, if_pos hc]
  rfl

theorem decodeFrom_four (ha : 0xF0 ≤ a.toNat ∧ a.toNat ≤ 0xF4) (hb : fitsFirst a b)
    (hc : isContinuation c) (hd : isContinuation d) :
    decodeFrom index (a :: b :: c :: d :: rest) =
      (decodeFrom (index + 4) rest).map
        (Char.ofNat (((payload 8 a * 64 + payload 64 b) * 64 + payload 64 c) * 64 +
          payload 64 d) :: ·) := by
  have hone : ¬ a < 0x80 := by
    rw [lt_iff_one]
    omega
  have htwo : ¬ (0xC2 ≤ a ∧ a ≤ 0xDF) := by
    rw [le_iff_two]
    omega
  have hthree : ¬ (0xE0 ≤ a ∧ a ≤ 0xEF) := by
    rw [le_iff_three]
    omega
  rw [decodeFrom.eq_def]
  simp only [if_neg hone, if_neg htwo, if_neg hthree, if_pos (le_iff_four.mpr ha), hb, hc,
    if_pos hd]
  rfl

/-! ## Bytes by their numbers -/

theorem toNat_ofNat_byte {n : Nat} (h : n < 256) : (UInt8.ofNat n).toNat = n :=
  UInt8.toNat_ofNat_of_lt' h

theorem isContinuation_ofNat {n : Nat} (h : n < 64) : isContinuation (UInt8.ofNat (n + 0x80)) := by
  have hbyte := toNat_ofNat_byte (show n + 0x80 < 256 by omega)
  simp only [isContinuation, Bool.and_eq_true, decide_eq_true_eq, UInt8.le_iff_toNat_le, hbyte,
    UInt8.toNat_ofNat]
  omega

theorem payload_ofNat {n size base : Nat} (h : n < size) (hbase : base % size = 0)
    (hbyte : n + base < 256) : payload size (UInt8.ofNat (n + base)) = n := by
  rw [payload, toNat_ofNat_byte hbyte, Nat.add_mod, hbase, Nat.add_zero, Nat.mod_mod,
    Nat.mod_eq_of_lt h]

/-- The second byte fits the first when there are no surplus zeros, no surrogates and nothing beyond
the last character. -/
theorem fitsFirst_ofNat {first second : Nat} (hfirst : first < 256) (hsecond : second < 64)
    (hE0 : first = 0xE0 → 0x20 ≤ second) (hED : first = 0xED → second < 0x20)
    (hF0 : first = 0xF0 → 0x10 ≤ second) (hF4 : first = 0xF4 → second < 0x10) :
    fitsFirst (UInt8.ofNat first) (UInt8.ofNat (second + 0x80)) := by
  have hbyte := toNat_ofNat_byte (show second + 0x80 < 256 by omega)
  have hbyte' := toNat_ofNat_byte hfirst
  simp only [fitsFirst, Bool.and_eq_true, isContinuation_ofNat hsecond, true_and,
    ← UInt8.toNat_inj, hbyte', UInt8.toNat_ofNat]
  split
  · simp only [decide_eq_true_eq, UInt8.le_iff_toNat_le, hbyte, UInt8.toNat_ofNat]
    omega
  · split
    · simp only [decide_eq_true_eq, UInt8.le_iff_toNat_le, hbyte, UInt8.toNat_ofNat]
      omega
    · split
      · simp only [decide_eq_true_eq, UInt8.le_iff_toNat_le, hbyte, UInt8.toNat_ofNat]
        omega
      · split
        · simp only [decide_eq_true_eq, UInt8.le_iff_toNat_le, hbyte, UInt8.toNat_ofNat]
          omega
        · rfl

/-! ## Whole texts -/

theorem encodeChar_one (ch : Char) (h : ch.toNat ≤ 0x7F) :
    String.utf8EncodeChar ch = [UInt8.ofNat ch.toNat] := if_pos h

theorem encodeChar_two (ch : Char) (h : 0x7F < ch.toNat) (h' : ch.toNat ≤ 0x7FF) :
    String.utf8EncodeChar ch =
      [UInt8.ofNat (ch.toNat / 64 % 32 + 0xC0), UInt8.ofNat (ch.toNat % 64 + 0x80)] :=
  (if_neg (Nat.not_le.mpr h)).trans (if_pos h')

theorem encodeChar_three (ch : Char) (h : 0x7FF < ch.toNat) (h' : ch.toNat ≤ 0xFFFF) :
    String.utf8EncodeChar ch =
      [UInt8.ofNat (ch.toNat / 4096 % 16 + 0xE0), UInt8.ofNat (ch.toNat / 64 % 64 + 0x80),
        UInt8.ofNat (ch.toNat % 64 + 0x80)] :=
  (if_neg (show ¬ ch.toNat ≤ 0x7F by omega)).trans
    ((if_neg (Nat.not_le.mpr h)).trans (if_pos h'))

theorem encodeChar_four (ch : Char) (h : 0xFFFF < ch.toNat) :
    String.utf8EncodeChar ch =
      [UInt8.ofNat (ch.toNat / 262144 % 8 + 0xF0), UInt8.ofNat (ch.toNat / 4096 % 64 + 0x80),
        UInt8.ofNat (ch.toNat / 64 % 64 + 0x80), UInt8.ofNat (ch.toNat % 64 + 0x80)] :=
  (if_neg (show ¬ ch.toNat ≤ 0x7F by omega)).trans
    ((if_neg (show ¬ ch.toNat ≤ 0x7FF by omega)).trans (if_neg (Nat.not_le.mpr h)))

/-- A character is no surrogate, and there is a last one. -/
theorem toNat_valid (ch : Char) : ch.toNat < 0xD800 ∨ 0xDFFF < ch.toNat ∧ ch.toNat < 0x110000 :=
  ch.valid

/-- A character is read back from its bytes, whatever follows them. -/
theorem decodeFrom_encodeChar (index : Nat) (ch : Char) (rest : List UInt8) :
    decodeFrom index (String.utf8EncodeChar ch ++ rest) =
      (decodeFrom (index + (String.utf8EncodeChar ch).length) rest).map (ch :: ·) := by
  have hvalid := toNat_valid ch
  rcases Nat.lt_or_ge 0x7F ch.toNat with h1 | h1
  · rcases Nat.lt_or_ge 0x7FF ch.toNat with h2 | h2
    · rcases Nat.lt_or_ge 0xFFFF ch.toNat with h3 | h3
      · -- Four bytes.
        have hfirst := toNat_ofNat_byte (show ch.toNat / 262144 % 8 + 0xF0 < 256 by omega)
        rw [encodeChar_four ch h3]
        show decodeFrom index (_ :: _ :: _ :: _ :: rest) = _
        rw [decodeFrom_four (by rw [hfirst]; omega)
          (fitsFirst_ofNat (by omega) (by omega) (by omega) (by omega) (by omega) (by omega))
          (isContinuation_ofNat (by omega)) (isContinuation_ofNat (by omega))]
        rw [payload_ofNat (by omega) rfl (by omega), payload_ofNat (by omega) rfl (by omega),
          payload_ofNat (by omega) rfl (by omega), payload_ofNat (by omega) rfl (by omega)]
        rw [show ((ch.toNat / 262144 % 8 * 64 + ch.toNat / 4096 % 64) * 64 +
          ch.toNat / 64 % 64) * 64 + ch.toNat % 64 = ch.toNat by omega, Char.ofNat_toNat]
        rfl
      · -- Three bytes.
        have hfirst := toNat_ofNat_byte (show ch.toNat / 4096 % 16 + 0xE0 < 256 by omega)
        rw [encodeChar_three ch h2 h3]
        show decodeFrom index (_ :: _ :: _ :: rest) = _
        rw [decodeFrom_three (by rw [hfirst]; omega)
          (fitsFirst_ofNat (by omega) (by omega) (by omega) (by omega) (by omega) (by omega))
          (isContinuation_ofNat (by omega))]
        rw [payload_ofNat (by omega) rfl (by omega), payload_ofNat (by omega) rfl (by omega),
          payload_ofNat (by omega) rfl (by omega)]
        rw [show (ch.toNat / 4096 % 16 * 64 + ch.toNat / 64 % 64) * 64 + ch.toNat % 64 =
          ch.toNat by omega, Char.ofNat_toNat]
        rfl
    · -- Two bytes.
      have hfirst := toNat_ofNat_byte (show ch.toNat / 64 % 32 + 0xC0 < 256 by omega)
      rw [encodeChar_two ch h1 h2]
      show decodeFrom index (_ :: _ :: rest) = _
      rw [decodeFrom_two (by rw [hfirst]; omega) (isContinuation_ofNat (by omega))]
      rw [payload_ofNat (by omega) rfl (by omega), payload_ofNat (by omega) rfl (by omega)]
      rw [show ch.toNat / 64 % 32 * 64 + ch.toNat % 64 = ch.toNat by omega, Char.ofNat_toNat]
      rfl
  · -- One byte.
    have hfirst := toNat_ofNat_byte (show ch.toNat < 256 by omega)
    rw [encodeChar_one ch h1]
    show decodeFrom index (_ :: rest) = _
    rw [decodeFrom_one (by rw [hfirst]; omega), hfirst, Char.ofNat_toNat]
    rfl

theorem decodeFrom_flatMap_encodeChar (index : Nat) (cs : List Char) :
    decodeFrom index (cs.flatMap String.utf8EncodeChar) = .ok cs := by
  induction cs generalizing index with
  | nil => rw [List.flatMap_nil, decodeFrom]
  | cons ch cs ih =>
    rw [List.flatMap_cons, decodeFrom_encodeChar, ih]
    rfl

/-- A text is read back from its bytes. -/
theorem decodeUtf8_encodeUtf8 (text : String) : decodeUtf8 (encodeUtf8 text) = .ok text := by
  rw [decodeUtf8, encodeUtf8, decodeFrom_flatMap_encodeChar]
  show Except.ok (String.ofList text.toList) = _
  rw [String.ofList_toList]

/-- The bytes of a character of several bytes are none of those that are characters
by themselves. -/
theorem toNat_of_mem_encodeChar {ch : Char} {byte : UInt8}
    (h : byte ∈ String.utf8EncodeChar ch) : byte.toNat = ch.toNat ∨ 0x80 ≤ byte.toNat := by
  have hvalid := toNat_valid ch
  have hof {n : Nat} (hn : byte = UInt8.ofNat n) (hlt : n < 256) : byte.toNat = n := by
    rw [hn, toNat_ofNat_byte hlt]
  rcases Nat.lt_or_ge 0x7F ch.toNat with h1 | h1
  · right
    rcases Nat.lt_or_ge 0x7FF ch.toNat with h2 | h2
    · rcases Nat.lt_or_ge 0xFFFF ch.toNat with h3 | h3
      · rw [encodeChar_four ch h3] at h
        simp only [List.mem_cons, List.not_mem_nil, or_false] at h
        rcases h with hn | hn | hn | hn <;> rw [hof hn (by omega)] <;> omega
      · rw [encodeChar_three ch h2 h3] at h
        simp only [List.mem_cons, List.not_mem_nil, or_false] at h
        rcases h with hn | hn | hn <;> rw [hof hn (by omega)] <;> omega
    · rw [encodeChar_two ch h1 h2] at h
      simp only [List.mem_cons, List.not_mem_nil, or_false] at h
      rcases h with hn | hn <;> rw [hof hn (by omega)] <;> omega
  · left
    rw [encodeChar_one ch h1, List.mem_singleton] at h
    exact hof h (by omega)

/-- Only the line feed is written with the byte of the line feed. -/
theorem lineFeed_not_mem_encodeChar {ch : Char} (h : ch ≠ '\n') :
    (10 : UInt8) ∉ String.utf8EncodeChar ch := by
  intro hmem
  have hten : (10 : UInt8).toNat = 10 := rfl
  rcases toNat_of_mem_encodeChar hmem with heq | hge
  · exact h (by rw [← Char.ofNat_toNat ch, ← heq, hten])
  · omega

end BindingGraph.Text
