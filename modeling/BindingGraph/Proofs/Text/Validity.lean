import BindingGraph.Proofs.Text.Utf8
import Mathlib.Tactic.SplitIfs

/-!
# Which bytes are text

Bytes are decoded exactly if they are the bytes of a text, and then to this text
(`decodeUtf8_eq_ok_iff`): no other bytes, such as those with surplus zeros, surrogates or
characters that are cut off, are read as anything. The bytes at the front of what is decoded are
those of its first character (`decodeFrom_cons_eq_ok`), with one case for each number of bytes, as
in the encoding.
-/

namespace BindingGraph.Text

variable {index : Nat} {a b c d : UInt8} {rest bytes : List UInt8}

/-! ## Bytes by their numbers -/

theorem isContinuation_iff : isContinuation b ↔ 0x80 ≤ b.toNat ∧ b.toNat ≤ 0xBF := by
  simp only [isContinuation, Bool.and_eq_true, decide_eq_true_eq, UInt8.le_iff_toNat_le,
    UInt8.toNat_ofNat]

theorem bounds_of_fitsFirst (h : fitsFirst a b) :
    (0x80 ≤ b.toNat ∧ b.toNat ≤ 0xBF) ∧ (a.toNat = 0xE0 → 0xA0 ≤ b.toNat) ∧
      (a.toNat = 0xED → b.toNat ≤ 0x9F) ∧ (a.toNat = 0xF0 → 0x90 ≤ b.toNat) ∧
      (a.toNat = 0xF4 → b.toNat ≤ 0x8F) := by
  rw [fitsFirst, Bool.and_eq_true, isContinuation_iff] at h
  obtain ⟨hcontinuation, hfits⟩ := h
  refine ⟨hcontinuation, ?_⟩
  simp only [← UInt8.toNat_inj, UInt8.toNat_ofNat] at hfits
  split_ifs at hfits <;>
    simp only [decide_eq_true_eq, UInt8.le_iff_toNat_le, UInt8.toNat_ofNat] at hfits <;> omega

theorem ofNat_eq_of_toNat {n : Nat} (h : a.toNat = n) : UInt8.ofNat n = a := by
  rw [← h, UInt8.ofNat_toNat]

/-! ## The characters of payloads -/

theorem toNat_ofNat_char {n : Nat} (h : n < 0xD800 ∨ 0xDFFF < n ∧ n < 0x110000) :
    (Char.ofNat n).toNat = n := by
  have hvalid : n.isValidChar := h
  rw [Char.ofNat, dif_pos hvalid]
  rfl

theorem encodeChar_ofNat_one (ha : a.toNat < 0x80) :
    String.utf8EncodeChar (Char.ofNat a.toNat) = [a] := by
  have hchar := toNat_ofNat_char (n := a.toNat) (by omega)
  rw [encodeChar_one _ (by omega), hchar, UInt8.ofNat_toNat]

theorem encodeChar_ofNat_two (ha : 0xC2 ≤ a.toNat ∧ a.toNat ≤ 0xDF) (hb : isContinuation b) :
    String.utf8EncodeChar (Char.ofNat (payload 32 a * 64 + payload 64 b)) = [a, b] := by
  rw [isContinuation_iff] at hb
  unfold payload
  have hchar := toNat_ofNat_char (n := a.toNat % 32 * 64 + b.toNat % 64) (by omega)
  rw [encodeChar_two _ (by omega) (by omega), hchar, ofNat_eq_of_toNat (a := a) (by omega),
    ofNat_eq_of_toNat (a := b) (by omega)]

theorem encodeChar_ofNat_three (ha : 0xE0 ≤ a.toNat ∧ a.toNat ≤ 0xEF) (hb : fitsFirst a b)
    (hc : isContinuation c) :
    String.utf8EncodeChar
      (Char.ofNat ((payload 16 a * 64 + payload 64 b) * 64 + payload 64 c)) = [a, b, c] := by
  obtain ⟨hb, hE0, hED, -, -⟩ := bounds_of_fitsFirst hb
  rw [isContinuation_iff] at hc
  unfold payload
  have hchar := toNat_ofNat_char
    (n := (a.toNat % 16 * 64 + b.toNat % 64) * 64 + c.toNat % 64) (by omega)
  rw [encodeChar_three _ (by omega) (by omega), hchar, ofNat_eq_of_toNat (a := a) (by omega),
    ofNat_eq_of_toNat (a := b) (by omega), ofNat_eq_of_toNat (a := c) (by omega)]

theorem encodeChar_ofNat_four (ha : 0xF0 ≤ a.toNat ∧ a.toNat ≤ 0xF4) (hb : fitsFirst a b)
    (hc : isContinuation c) (hd : isContinuation d) :
    String.utf8EncodeChar
      (Char.ofNat (((payload 8 a * 64 + payload 64 b) * 64 + payload 64 c) * 64 + payload 64 d)) =
        [a, b, c, d] := by
  obtain ⟨hb, -, -, hF0, hF4⟩ := bounds_of_fitsFirst hb
  rw [isContinuation_iff] at hc hd
  unfold payload
  have hchar := toNat_ofNat_char
    (n := ((a.toNat % 8 * 64 + b.toNat % 64) * 64 + c.toNat % 64) * 64 + d.toNat % 64) (by omega)
  rw [encodeChar_four _ (by omega), hchar, ofNat_eq_of_toNat (a := a) (by omega),
    ofNat_eq_of_toNat (a := b) (by omega), ofNat_eq_of_toNat (a := c) (by omega),
    ofNat_eq_of_toNat (a := d) (by omega)]

/-! ## What is decoded -/

theorem map_cons_eq_ok {x : Except Utf8Fault (List Char)} {ch : Char} {cs : List Char}
    (h : x.map (ch :: ·) = .ok cs) : ∃ others, cs = ch :: others ∧ x = .ok others := by
  cases x with
  | error fault => cases h
  | ok others =>
    cases h
    exact ⟨others, rfl, rfl⟩

/-- What is decoded starts with the bytes of its first character. -/
theorem decodeFrom_cons_eq_ok {cs : List Char} (h : decodeFrom index (a :: rest) = .ok cs) :
    ∃ ch others bytes next, cs = ch :: others ∧ a :: rest = String.utf8EncodeChar ch ++ bytes ∧
      decodeFrom next bytes = .ok others := by
  rw [decodeFrom.eq_def] at h
  dsimp only at h
  split_ifs at h with hone htwo hthree hfour
  · -- One byte.
    obtain ⟨others, rfl, hothers⟩ := map_cons_eq_ok h
    refine ⟨_, _, rest, _, rfl, ?_, hothers⟩
    rw [encodeChar_ofNat_one (lt_iff_one.mp hone)]
    rfl
  · -- Two bytes.
    split at h
    · cases h
    · rename_i b rest
      split_ifs at h with hb
      obtain ⟨others, rfl, hothers⟩ := map_cons_eq_ok h
      refine ⟨_, _, rest, _, rfl, ?_, hothers⟩
      rw [encodeChar_ofNat_two (le_iff_two.mp htwo) hb]
      rfl
  · -- Three bytes.
    split at h
    · cases h
    · rename_i b rest
      split_ifs at h with hb
      split at h
      · cases h
      · rename_i c rest
        split_ifs at h with hc
        obtain ⟨others, rfl, hothers⟩ := map_cons_eq_ok h
        refine ⟨_, _, rest, _, rfl, ?_, hothers⟩
        rw [encodeChar_ofNat_three (le_iff_three.mp hthree) (by simpa using hb) hc]
        rfl
  · -- Four bytes.
    split at h
    · cases h
    · rename_i b rest
      split_ifs at h with hb
      split at h
      · cases h
      · rename_i c rest
        split_ifs at h with hc
        split at h
        · cases h
        · rename_i d rest
          split_ifs at h with hd
          obtain ⟨others, rfl, hothers⟩ := map_cons_eq_ok h
          refine ⟨_, _, rest, _, rfl, ?_, hothers⟩
          rw [encodeChar_ofNat_four (le_iff_four.mp hfour) (by simpa using hb)
            (by simpa using hc) hd]
          rfl

theorem flatMap_encodeChar_of_decodeFrom {cs : List Char} (h : decodeFrom index bytes = .ok cs) :
    cs.flatMap String.utf8EncodeChar = bytes := by
  induction cs generalizing index bytes with
  | nil =>
    cases bytes with
    | nil => rfl
    | cons a rest =>
      obtain ⟨_, _, _, _, hnil, -⟩ := decodeFrom_cons_eq_ok h
      cases hnil
  | cons ch cs ih =>
    cases bytes with
    | nil =>
      rw [decodeFrom] at h
      cases h
    | cons a rest =>
      obtain ⟨_, _, bytes, _, hcons, hbytes, hothers⟩ := decodeFrom_cons_eq_ok h
      cases hcons
      rw [List.flatMap_cons, ih hothers, hbytes]

/-- Bytes are decoded exactly if they are those of a text. -/
theorem decodeUtf8_eq_ok_iff {text : String} :
    decodeUtf8 bytes = .ok text ↔ encodeUtf8 text = bytes := by
  constructor
  · intro h
    rw [decodeUtf8] at h
    cases hchars : decodeFrom 0 bytes with
    | error fault =>
      rw [hchars] at h
      cases h
    | ok cs =>
      rw [hchars] at h
      cases h
      rw [encodeUtf8, String.toList_ofList]
      exact flatMap_encodeChar_of_decodeFrom hchars
  · rintro rfl
    exact decodeUtf8_encodeUtf8 text

end BindingGraph.Text
