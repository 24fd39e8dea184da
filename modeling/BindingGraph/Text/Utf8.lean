/-!
# Text as bytes

A text is stored in UTF-8. Reading bytes back either gives the text or says where the first
bytes that are no character start, and how many they are; at the end of the bytes a character
may be incomplete.
-/

namespace BindingGraph.Text

/-- Bytes that are no character: how many bytes of whole characters stand before them, and how many
they are, none if the bytes end within a character. -/
structure Utf8Fault where
  index : Nat
  length : Option Nat
  deriving DecidableEq

/-- The fault in words. -/
def Utf8Fault.message (fault : Utf8Fault) : String :=
  match fault.length with
  | some length => s!"invalid utf-8 sequence of {length} bytes from index {fault.index}"
  | none => s!"incomplete utf-8 byte sequence from index {fault.index}"

/-- The bytes of a text. -/
def encodeUtf8 (text : String) : List UInt8 := text.toList.flatMap String.utf8EncodeChar

/-- Whether a byte continues a character. -/
def isContinuation (b : UInt8) : Bool := 0x80 ≤ b && b ≤ 0xBF

/-- Whether the second byte of a character of three or four bytes fits the first: there are no
surplus zeros, no surrogates and nothing beyond the last character. -/
def fitsFirst (first second : UInt8) : Bool :=
  isContinuation second &&
    if first = 0xE0 then 0xA0 ≤ second
    else if first = 0xED then second ≤ 0x9F
    else if first = 0xF0 then 0x90 ≤ second
    else if first = 0xF4 then second ≤ 0x8F
    else true

/-- What a byte contributes to the number of a character. -/
def payload (size : Nat) (b : UInt8) : Nat := b.toNat % size

/-- The characters of bytes that follow `index` others. -/
def decodeFrom (index : Nat) : List UInt8 → Except Utf8Fault (List Char)
  | [] => .ok []
  | a :: rest =>
    if a < 0x80 then (decodeFrom (index + 1) rest).map (Char.ofNat a.toNat :: ·)
    else if 0xC2 ≤ a ∧ a ≤ 0xDF then
      match rest with
      | [] => .error ⟨index, none⟩
      | b :: rest =>
        if isContinuation b then
          (decodeFrom (index + 2) rest).map (Char.ofNat (payload 32 a * 64 + payload 64 b) :: ·)
        else .error ⟨index, some 1⟩
    else if 0xE0 ≤ a ∧ a ≤ 0xEF then
      match rest with
      | [] => .error ⟨index, none⟩
      | b :: rest =>
        if !fitsFirst a b then .error ⟨index, some 1⟩
        else
          match rest with
          | [] => .error ⟨index, none⟩
          | c :: rest =>
            if isContinuation c then
              (decodeFrom (index + 3) rest).map
                (Char.ofNat ((payload 16 a * 64 + payload 64 b) * 64 + payload 64 c) :: ·)
            else .error ⟨index, some 2⟩
    else if 0xF0 ≤ a ∧ a ≤ 0xF4 then
      match rest with
      | [] => .error ⟨index, none⟩
      | b :: rest =>
        if !fitsFirst a b then .error ⟨index, some 1⟩
        else
          match rest with
          | [] => .error ⟨index, none⟩
          | c :: rest =>
            if !isContinuation c then .error ⟨index, some 2⟩
            else
              match rest with
              | [] => .error ⟨index, none⟩
              | d :: rest =>
                if isContinuation d then
                  (decodeFrom (index + 4) rest).map
                    (Char.ofNat (((payload 8 a * 64 + payload 64 b) * 64 + payload 64 c) * 64 +
                      payload 64 d) :: ·)
                else .error ⟨index, some 3⟩
    else .error ⟨index, some 1⟩

/-- The text of bytes. -/
def decodeUtf8 (bytes : List UInt8) : Except Utf8Fault String :=
  (decodeFrom 0 bytes).map String.ofList

end BindingGraph.Text
