import BindingGraph.Proofs.Text.Utf8
import BindingGraph.Text.Blank
import BindingGraph.Text.Lines
import Mathlib.Data.List.TakeWhile

/-!
# Lines that have been written

Bytes are cut into lines before they are decoded, which gives the lines of the text that they are
(`decodeLines_encodeUtf8`). Texts that are written one to a line are read back as the lines of the
whole (`linesOfBytes_encodeLines`), as long as none of them holds a line feed or ends in a carriage
return. Trimming leaves a text as it is exactly when no blank character stands at either end, which
its own result always satisfies (`isTrimmed_trim`).
-/

namespace BindingGraph.Text

/-! ## Cutting into lines -/

/-- Bytes that are no line feeds go on the line under construction. -/
theorem cutLines_skip {line bytes rest : List UInt8} (h : (10 : UInt8) ∉ bytes) :
    cutLines line (bytes ++ rest) = cutLines (bytes.reverse ++ line) rest := by
  induction bytes generalizing line with
  | nil => rfl
  | cons byte bytes ih =>
    have hne : byte ≠ 10 := fun heq => h (by rw [heq]; exact List.mem_cons_self)
    rw [List.cons_append, cutLines, if_neg hne, ih fun hmem => h (List.mem_cons_of_mem _ hmem)]
    simp

/-- Bytes up to the next line feed are one line. -/
theorem cutLines_append {line bytes rest : List UInt8} (h : (10 : UInt8) ∉ bytes) :
    cutLines line (bytes ++ 10 :: rest) = (line.reverse ++ bytes ++ [10]) :: cutLines [] rest := by
  rw [cutLines_skip h, cutLines, if_pos rfl]
  simp

section LineEnd

variable {α : Type} [DecidableEq α] {lineFeed carriageReturn : α} {line : List α}

theorem dropLineEnd_of_getLast?_ne (h : line.getLast? ≠ some lineFeed) :
    dropLineEnd lineFeed carriageReturn line = line := by
  rcases List.eq_nil_or_concat line with rfl | ⟨front, last, rfl⟩
  · rfl
  · have hlast : last ≠ lineFeed := by simpa using h
    simp [dropLineEnd, hlast]

theorem dropLineEnd_append (h : line.getLast? ≠ some carriageReturn) :
    dropLineEnd lineFeed carriageReturn (line ++ [lineFeed]) = line := by
  have hhead : ¬ line.reverse.head? = some carriageReturn := by rwa [List.head?_reverse]
  rw [dropLineEnd, List.reverse_append, List.reverse_singleton, List.singleton_append]
  show (if lineFeed ≠ lineFeed then _
    else if line.reverse.head? = some carriageReturn then _ else _) = _
  rw [if_neg (by simp), if_neg hhead, List.reverse_reverse]

theorem dropLineEnd_append_both :
    dropLineEnd lineFeed carriageReturn (line ++ [carriageReturn, lineFeed]) = line := by
  simp [dropLineEnd]

end LineEnd

/-! ## The end of encoded characters -/

/-- Bytes end in that of an ASCII character exactly if the characters end in it. -/
theorem getLast?_flatMap_encodeChar_iff (ascii : Char) (hascii : ascii.toNat < 0x80)
    {cs : List Char} :
    (cs.flatMap String.utf8EncodeChar).getLast? = some (UInt8.ofNat ascii.toNat) ↔
      cs.getLast? = some ascii := by
  have hbyte : (UInt8.ofNat ascii.toNat).toNat = ascii.toNat := toNat_ofNat_byte (by omega)
  rcases List.eq_nil_or_concat cs with rfl | ⟨front, last, rfl⟩
  · simp
  · -- The last byte is the last one of the last character.
    rw [List.concat_eq_append, List.flatMap_append, List.flatMap_singleton, List.getLast?_append,
      List.getLast?_eq_some_getLast String.utf8EncodeChar_ne_nil, List.getLast?_concat]
    show some _ = some _ ↔ _
    rw [Option.some.injEq, Option.some.injEq]
    constructor
    · intro hlast
      have hmem : UInt8.ofNat ascii.toNat ∈ String.utf8EncodeChar last :=
        hlast ▸ List.getLast_mem _
      rcases toNat_of_mem_encodeChar hmem with heq | hge
      · rw [← Char.ofNat_toNat last, ← heq, hbyte, Char.ofNat_toNat]
      · omega
    · rintro rfl
      simp [encodeChar_one last (by omega)]

/-- A line end is dropped alike from characters and from their bytes. -/
theorem dropLineEnd_flatMap_encodeChar (line : List Char) :
    dropLineEnd 10 13 (line.flatMap String.utf8EncodeChar) =
      (dropLineEnd '\n' '\r' line).flatMap String.utf8EncodeChar := by
  by_cases hfeed : line.getLast? = some '\n'
  · obtain ⟨front, rfl⟩ := List.getLast?_eq_some_iff.mp hfeed
    by_cases hreturn : front.getLast? = some '\r'
    · obtain ⟨front, rfl⟩ := List.getLast?_eq_some_iff.mp hreturn
      have hbytes : (front ++ ['\r'] ++ ['\n']).flatMap String.utf8EncodeChar =
          front.flatMap String.utf8EncodeChar ++ [13, 10] := by
        simp [encodeChar_one]
      rw [hbytes, dropLineEnd_append_both, List.append_assoc]
      exact congrArg _ dropLineEnd_append_both.symm
    · have hbytes : (front ++ ['\n']).flatMap String.utf8EncodeChar =
          front.flatMap String.utf8EncodeChar ++ [10] := by
        simp [encodeChar_one]
      rw [hbytes, dropLineEnd_append hreturn, dropLineEnd_append]
      exact fun hlast =>
        hreturn ((getLast?_flatMap_encodeChar_iff '\r' (by decide)).mp hlast)
  · rw [dropLineEnd_of_getLast?_ne hfeed, dropLineEnd_of_getLast?_ne]
    exact fun hlast =>
      hfeed ((getLast?_flatMap_encodeChar_iff '\n' (by decide)).mp hlast)

/-! ## The lines of a text -/

/-- Cut characters behind each line feed. The line under construction is kept in reverse. -/
def cutChars (line : List Char) : List Char → List (List Char)
  | [] => if line.isEmpty then [] else [line.reverse]
  | ch :: cs =>
    if ch = '\n' then (ch :: line).reverse :: cutChars [] cs else cutChars (ch :: line) cs

/-- The lines of a text, without their ends. -/
def lines (text : String) : List String :=
  (cutChars [] text.toList).map fun line => String.ofList (dropLineEnd '\n' '\r' line)

theorem cutLines_flatMap_encodeChar (line cs : List Char) :
    cutLines (line.reverse.flatMap String.utf8EncodeChar).reverse
      (cs.flatMap String.utf8EncodeChar) =
      (cutChars line cs).map (·.flatMap String.utf8EncodeChar) := by
  induction cs generalizing line with
  | nil =>
    cases line with
    | nil => rfl
    | cons ch line =>
      rw [List.flatMap_nil, cutLines, if_neg (by simp)]
      simp [cutChars]
  | cons ch cs ih =>
    by_cases hfeed : ch = '\n'
    · subst hfeed
      have hchar : String.utf8EncodeChar '\n' = [10] := rfl
      have hempty := ih []
      simp only [List.reverse_nil, List.flatMap_nil] at hempty
      rw [List.flatMap_cons, hchar, List.singleton_append, cutLines, if_pos rfl, cutChars,
        if_pos rfl, hempty]
      simp [List.flatMap_append, hchar]
    · have hnext := ih (ch :: line)
      rw [List.reverse_cons, List.flatMap_append, List.flatMap_singleton, List.reverse_append]
        at hnext
      rw [List.flatMap_cons, cutLines_skip (lineFeed_not_mem_encodeChar hfeed), hnext, cutChars,
        if_neg hfeed]

/-- The lines of encoded text are its lines. -/
theorem decodeLines_encodeUtf8 (text : String) :
    decodeLines (encodeUtf8 text) = (lines text).map .ok := by
  have hcut : cutLines [] (encodeUtf8 text) =
      (cutChars [] text.toList).map (·.flatMap String.utf8EncodeChar) :=
    cutLines_flatMap_encodeChar [] text.toList
  rw [decodeLines, hcut, lines, List.map_map, List.map_map]
  refine List.map_congr_left fun line _ => ?_
  show decodeLine (line.flatMap String.utf8EncodeChar) = _
  rw [decodeLine, dropLineEnd_flatMap_encodeChar, decodeUtf8, decodeFrom_flatMap_encodeChar]
  rfl

/-! ## Lines of text -/

/-- A text that can be read back as one line. -/
structure IsLine (text : String) : Prop where
  no_lineFeed : '\n' ∉ text.toList
  no_carriageReturn : text.toList.getLast? ≠ some '\r'

theorem IsLine.lineFeed_not_mem {text : String} (h : IsLine text) :
    (10 : UInt8) ∉ encodeUtf8 text := by
  intro hmem
  obtain ⟨ch, hch, hbyte⟩ := List.mem_flatMap.mp hmem
  exact lineFeed_not_mem_encodeChar (fun heq => h.no_lineFeed (heq ▸ hch)) hbyte

theorem IsLine.getLast?_ne {text : String} (h : IsLine text) :
    (encodeUtf8 text).getLast? ≠ some 13 := by
  intro hlast
  exact h.no_carriageReturn ((getLast?_flatMap_encodeChar_iff '\r' (by decide)).mp hlast)

/-- A line that has been written is read back. -/
theorem IsLine.decodeLine_eq {text : String} (h : IsLine text) :
    decodeLine (encodeUtf8 text ++ [10]) = .ok text := by
  rw [decodeLine, dropLineEnd_append h.getLast?_ne, decodeUtf8_encodeUtf8]

theorem encodeUtf8_append (a b : String) : encodeUtf8 (a ++ b) = encodeUtf8 a ++ encodeUtf8 b := by
  rw [encodeUtf8, String.toList_append, List.flatMap_append]
  rfl

/-- Texts written one to a line are read back in order. -/
theorem linesOfBytes_encodeLines {lines : List String} (h : ∀ line ∈ lines, IsLine line) :
    linesOfBytes (encodeUtf8 (String.join (lines.map (· ++ "\n")))) = .ok lines := by
  rw [linesOfBytes]
  induction lines with
  | nil => rfl
  | cons line lines ih =>
    have hline := h line List.mem_cons_self
    have hbytes : encodeUtf8 (String.join ((line :: lines).map (· ++ "\n"))) =
        encodeUtf8 line ++ 10 :: encodeUtf8 (String.join (lines.map (· ++ "\n"))) := by
      rw [List.map_cons, String.join_cons, encodeUtf8_append, encodeUtf8_append, List.append_assoc]
      rfl
    rw [hbytes, cutLines_append hline.lineFeed_not_mem, List.reverse_nil, List.nil_append,
      List.mapM_cons, hline.decodeLine_eq,
      ih fun other hother => h other (List.mem_cons_of_mem _ hother)]
    rfl

/-! ## Trimming -/

/-- No blank character stands at either end. -/
structure IsTrimmed (text : String) : Prop where
  first : ∀ ch ∈ text.toList.head?, isBlank ch = false
  last : ∀ ch ∈ text.toList.getLast?, isBlank ch = false

theorem dropWhile_eq_self {cs : List Char} (h : ∀ ch ∈ cs.head?, isBlank ch = false) :
    cs.dropWhile isBlank = cs := by
  cases cs with
  | nil => rfl
  | cons ch cs => rw [List.dropWhile_cons, if_neg (by rw [h ch rfl]; exact Bool.false_ne_true)]

/-- A trimmed text stays as it is. -/
theorem IsTrimmed.trim_eq {text : String} (h : IsTrimmed text) : trim text = text := by
  have hlast : ∀ ch ∈ text.toList.reverse.head?, isBlank ch = false := by
    rw [List.head?_reverse]
    exact h.last
  rw [trim, trimChars, dropWhile_eq_self h.first, dropWhile_eq_self hlast, List.reverse_reverse,
    String.ofList_toList]

theorem head?_dropWhile {cs : List Char} :
    ∀ ch ∈ (cs.dropWhile isBlank).head?, isBlank ch = false := by
  intro ch hch
  have hnot := List.head?_dropWhile_not isBlank cs
  rw [Option.mem_def.mp hch] at hnot
  simpa using hnot

/-- What trimming leaves is trimmed. -/
theorem isTrimmed_trim (text : String) : IsTrimmed (trim text) := by
  have hchars : (trim text).toList = trimChars text.toList := String.toList_ofList
  constructor
  · intro ch hch
    -- Dropping at the end leaves a front part of what starts with no blank character.
    obtain ⟨dropped, hdropped⟩ :=
      List.dropWhile_suffix (l := (text.toList.dropWhile isBlank).reverse) isBlank
    rw [hchars, trimChars, List.head?_reverse] at hch
    have hhead : ch ∈ (text.toList.dropWhile isBlank).head? := by
      rw [← List.getLast?_reverse, ← hdropped, List.getLast?_append, hch]
      rfl
    exact head?_dropWhile ch hhead
  · intro ch hch
    rw [hchars, trimChars, List.getLast?_reverse] at hch
    exact head?_dropWhile ch hch

theorem isTrimmed_iff {text : String} : IsTrimmed text ↔ trim text = text :=
  ⟨IsTrimmed.trim_eq, fun h => h ▸ isTrimmed_trim text⟩

instance (text : String) : Decidable (IsTrimmed text) := decidable_of_iff _ isTrimmed_iff.symm

/-- Trimming takes away exactly the blank characters around a trimmed text. -/
theorem trim_eq_iff {text core : String} :
    trim text = core ↔
      IsTrimmed core ∧ ∃ before after : List Char, text.toList = before ++ core.toList ++ after ∧
        (∀ c ∈ before, isBlank c = true) ∧ ∀ c ∈ after, isBlank c = true := by
  constructor
  · rintro rfl
    refine ⟨isTrimmed_trim text, text.toList.takeWhile isBlank,
      ((text.toList.dropWhile isBlank).reverse.takeWhile isBlank).reverse, ?_, ?_, ?_⟩
    · rw [trim, String.toList_ofList, trimChars, List.append_assoc, ← List.reverse_append,
        List.takeWhile_append_dropWhile, List.reverse_reverse, List.takeWhile_append_dropWhile]
    · exact fun c => List.mem_takeWhile_imp
    · exact fun c hc => List.mem_takeWhile_imp (List.mem_reverse.mp hc)
  · rintro ⟨hcore, before, after, htext, hbefore, hafter⟩
    rcases hchars : core.toList with _ | ⟨first, rest⟩
    · -- A text of blank characters is used up by the first pass already.
      have hall : text.toList.dropWhile isBlank = [] := by
        rw [htext, hchars, List.append_nil, List.dropWhile_append_of_pos hbefore,
          List.dropWhile_eq_nil_iff.mpr hafter]
      rw [trim, trimChars, hall, ← String.toList_inj, hchars]
      rfl
    · have hfront : text.toList.dropWhile isBlank = core.toList ++ after := by
        rw [htext, List.append_assoc, List.dropWhile_append_of_pos hbefore]
        apply dropWhile_eq_self
        have hfirst := hcore.first
        rw [hchars] at hfirst ⊢
        exact hfirst
      have hback : (core.toList ++ after).reverse.dropWhile isBlank = core.toList.reverse := by
        rw [List.reverse_append,
          List.dropWhile_append_of_pos fun c hc => hafter c (List.mem_reverse.mp hc)]
        apply dropWhile_eq_self
        rw [List.head?_reverse]
        exact hcore.last
      rw [trim, trimChars, hfront, hback, List.reverse_reverse, String.ofList_toList]

end BindingGraph.Text
