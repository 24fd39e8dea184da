import BindingGraph.Proofs.Yaml.Characters
import BindingGraph.Yaml.Scalar
import Mathlib.Algebra.Group.Nat.Defs

/-!
# Quoted scalars are read as they are written

Between single quotes, line breaks and the indentation behind them make a gap that stands
for the breaks alone (`quotedFrom_singleBody`). Between double quotes each character is
spelled out in one of three ways, and each way is read as the character
(`quotedFrom_spelled`, `quotedFrom_doubleChars`).
-/

namespace BindingGraph.Yaml

variable {single afterBreak : Bool} {c before : Char} {cs rest tail text : List Char}
  {place : Place} {cursor : Cursor} {space : Gap}

/-! ## One character -/

/-- A word is read on as behind an empty gap. -/
theorem quotedFrom_word :
    quotedFrom single .word place cs = quotedFrom single (.gap {}) place cs := by
  cases cs with
  | nil => rfl
  | cons c cs =>
    rw [quotedFrom, quotedFrom]
    · rfl
    all_goals nofun

theorem quotedFrom_pad (hpad : isPad c = true) :
    quotedFrom single (.gap space) place (c :: rest) =
      quotedFrom single (.gap (space.pad c)) (place.next c) rest := by
  rw [quotedFrom, if_pos hpad]

theorem quotedFrom_break (hbreak : isBreak c = true) :
    quotedFrom single (.gap space) place (c :: rest) =
      quotedFrom single (.gap (space.addBreak c)) (place.next c) rest := by
  have hpad : ¬ isPad c = true := fun hpad => by
    rw [not_isBreak_of_isPad hpad] at hbreak
    cases hbreak
  rw [quotedFrom, if_neg hpad, if_pos hbreak]

/-- Characters that are no space and end no line: what they stand for depends on the kind
of quotes. -/
theorem quotedFrom_visible (hpad : isPad c = false) (hbreak : isBreak c = false)
    (hcolumn : 0 < place.column) :
    quotedFrom single (.gap space) place (c :: rest) =
      ((if single then
          if c = '\'' then
            if rest.head? = some '\'' then quotedFrom single .quote (place.next c) rest
            else .ok ([], ⟨rest, place.next c⟩)
          else (quotedFrom single .word (place.next c) rest).map fun (text, cursor) =>
          ([c] ++ text, cursor)
        else if c = '"' then .ok ([], ⟨rest, place.next c⟩)
        else if c = '\\' then quotedFrom single .escape (place.next c) rest
        else (quotedFrom single .word (place.next c) rest).map fun (text, cursor) =>
        ([c] ++ text, cursor)).map
        fun (text, cursor) => (space.text ++ text, cursor)) := by
  rw [quotedFrom, if_neg (by simp [hpad]), if_neg (by simp [hbreak]),
    if_neg fun h => absurd h.1 (Nat.ne_of_gt hcolumn)]
  rfl

theorem quotedFrom_single_visible (hpad : isPad c = false) (hbreak : isBreak c = false)
    (hcolumn : 0 < place.column) (hquote : c ≠ '\'')
    (hrest : quotedFrom true (.gap {}) (place.next c) rest = .ok (text, cursor)) :
    quotedFrom true (.gap space) place (c :: rest) = .ok (space.text ++ c :: text, cursor) := by
  rw [quotedFrom_visible hpad hbreak hcolumn, if_pos rfl, if_neg hquote, quotedFrom_word, hrest]
  rfl

theorem quotedFrom_single_quote (hcolumn : 0 < place.column)
    (hrest : quotedFrom true (.gap {}) ((place.next '\'').next '\'') rest = .ok (text, cursor)) :
    quotedFrom true (.gap space) place ('\'' :: '\'' :: rest) =
      .ok (space.text ++ '\'' :: text, cursor) := by
  rw [quotedFrom_visible (by decide) (by decide) hcolumn, if_pos rfl, if_pos rfl,
    if_pos List.head?_cons, quotedFrom, quotedFrom_word, hrest]
  rfl

theorem quotedFrom_single_end (hcolumn : 0 < place.column) (htail : tail.head? ≠ some '\'') :
    quotedFrom true (.gap space) place ('\'' :: tail) =
      .ok (space.text, ⟨tail, place.next '\''⟩) := by
  rw [quotedFrom_visible (by decide) (by decide) hcolumn, if_pos rfl, if_pos rfl, if_neg htail]
  show Except.ok (space.text ++ [], _) = _
  rw [List.append_nil]

/-! ## Between single quotes -/

/-- The gap behind the character `before`; the flag says whether that ended a line. No gap has both
spaces and line breaks, or a line feed. -/
inductive Follows (before : Char) : Gap → Bool → Prop
  | spaces {pads : List Char} (hpads : pads = [] ∨ isSpace before = true) :
      Follows before { pads } false
  | breaks {breaks : List Char} (hbreak : isBreak before = true) (hne : breaks ≠ [])
      (hfeed : '\n' ∉ breaks) :
      Follows before { breaks } true

/-- A gap of line breaks other than line feeds stands for all of them. -/
theorem Gap.text_of_breaks {breaks : List Char} (hne : breaks ≠ []) (hfeed : '\n' ∉ breaks) :
    ({ breaks } : Gap).text = breaks := by
  obtain ⟨c, more, rfl⟩ := List.exists_cons_of_ne_nil hne
  have hc : c ≠ '\n' := fun h => hfeed (h ▸ List.mem_cons_self)
  unfold Gap.text
  split
  all_goals simp_all

theorem Follows.pad_space (h : Follows before space false) :
    Follows ' ' (space.pad ' ') false ∧ (space.pad ' ').text = space.text ++ [' '] := by
  cases h
  exact ⟨.spaces (.inr rfl), rfl⟩

theorem Follows.addBreak (h : Follows before space afterBreak) (hbefore : isSpace before = false)
    (hc : isBreak c = true) (hfeed : c ≠ '\n') :
    Follows c (space.addBreak c) true ∧ (space.addBreak c).text = space.text ++ [c] := by
  cases h with
  | spaces hpads =>
    have hempty := hpads.resolve_right (by simp [hbefore])
    subst hempty
    have hnone : '\n' ∉ [c] := by simpa using hfeed.symm
    exact ⟨.breaks hc (List.cons_ne_nil _ _) hnone, Gap.text_of_breaks (List.cons_ne_nil _ _) hnone⟩
  | @breaks breaks _ hne hfeeds =>
    have hnone : '\n' ∉ breaks ++ [c] := by simp [hfeeds, hfeed.symm]
    refine ⟨.breaks hc (by simp) hnone, ?_⟩
    rw [Gap.text_of_breaks hne hfeeds]
    exact Gap.text_of_breaks (by simp) hnone

/-- The indentation behind a line break counts for nothing. -/
theorem Follows.indentation (h : Follows before space afterBreak) :
    quotedFrom single (.gap space) place ((if afterBreak then indentation else []) ++ rest) =
      quotedFrom single (.gap space)
        (place.after (if afterBreak then indentation else [])) rest := by
  cases h with
  | spaces => rfl
  | @breaks breaks _ hne _ =>
    have hpad : ({ breaks } : Gap).pad ' ' = { breaks } := if_neg (by simpa using hne)
    show quotedFrom single (.gap { breaks }) place (' ' :: ' ' :: rest) = _
    rw [quotedFrom_pad (by decide), hpad, quotedFrom_pad (by decide), hpad]
    rfl

theorem column_pos_of_indentation (hcolumn : afterBreak = true ∨ 0 < place.column) :
    0 < (place.after (if afterBreak then indentation else [])).column := by
  cases afterBreak with
  | true =>
    rw [if_pos rfl, Place.column_after (by simp [indentation, isBreak])]
    exact Nat.lt_of_lt_of_le (by decide) (Nat.le_add_left _ _)
  | false => exact hcolumn.resolve_left (by decide)

theorem singleBody_break (hbreak : isBreak c = true) (hfeed : c ≠ '\n') :
    singleBody afterBreak (c :: cs) = c :: singleBody true cs := by
  rw [singleBody, if_pos hbreak, if_neg (by simp [hfeed])]
  rfl

theorem singleBody_visible (hbreak : isBreak c = false) :
    singleBody afterBreak (c :: cs) = (if afterBreak then indentation else []) ++
      ((if c = '\'' then ['\'', c] else [c]) ++ singleBody false cs) := by
  rw [singleBody, if_neg (by simp [hbreak]), List.append_assoc]

/-- A text without line feeds, whose line breaks have no spaces beside them, is read from between
single quotes as it was written. -/
theorem quotedFrom_singleBody (hfollows : Follows before space afterBreak)
    (hbefore : isBreak before = afterBreak) (hwritable : ∀ c ∈ cs, isWritable c = true)
    (hfeed : '\n' ∉ cs) (hbreakSpace : hasPair isBreak isSpace (before :: cs) = false)
    (hspaceBreak : hasPair isSpace isBreak (before :: cs) = false)
    (hcolumn : afterBreak = true ∨ 0 < place.column) (htail : tail.head? ≠ some '\'') :
    quotedFrom true (.gap space) place (singleBody afterBreak cs ++ '\'' :: tail) =
      .ok (space.text ++ cs, ⟨tail, place.after (singleBody afterBreak cs ++ ['\''])⟩) := by
  induction cs generalizing before space afterBreak place with
  | nil =>
    rw [singleBody, hfollows.indentation,
      quotedFrom_single_end (column_pos_of_indentation hcolumn) htail, Place.after_append,
      List.append_nil]
    rfl
  | cons c cs ih =>
    rw [List.forall_mem_cons] at hwritable
    rw [List.mem_cons, not_or] at hfeed
    rw [hasPair, Bool.or_eq_false_iff] at hbreakSpace hspaceBreak
    by_cases hbreak : isBreak c = true
    · -- The break joins the gap, which holds no spaces.
      have hspace : isSpace before = false := by simpa [hbreak] using hspaceBreak.1
      obtain ⟨hfollows', htext⟩ := hfollows.addBreak hspace hbreak (Ne.symm hfeed.1)
      rw [singleBody_break hbreak (Ne.symm hfeed.1), List.cons_append, quotedFrom_break hbreak,
        ih hfollows' hbreak hwritable.2 hfeed.2 hbreakSpace.2 hspaceBreak.2 (.inl rfl), htext,
        List.append_assoc]
      rfl
    · have hbreak : isBreak c = false := eq_false_of_ne_true hbreak
      have hpos : 0 < (place.after (if afterBreak then indentation else [])).column :=
        column_pos_of_indentation hcolumn
      rw [singleBody_visible hbreak, List.append_assoc, hfollows.indentation,
        List.append_assoc (if afterBreak then _ else _), Place.after_append]
      generalize place.after (if afterBreak then indentation else []) = place at hpos
      have hnext {d : Char} (hd : isBreak d = false) (place : Place) :
          0 < (place.next d).column := by
        rw [Place.column_next hd]
        exact Nat.succ_pos _
      have hrest {space : Gap} {place : Place} (hfollows : Follows c space false)
          (hpos : 0 < place.column) :=
        ih hfollows hbreak hwritable.2 hfeed.2 hbreakSpace.2 hspaceBreak.2 (.inr hpos)
      by_cases hquote : c = '\''
      · subst hquote
        exact quotedFrom_single_quote hpos (hrest (.spaces (.inl rfl)) (hnext hbreak _))
      rw [if_neg hquote]
      by_cases hspace : isSpace c = true
      · -- A space does not stand behind a line break.
        have hline : afterBreak = false := by simpa [hspace, hbefore] using hbreakSpace.1
        rw [isSpace_iff] at hspace
        subst hspace hline
        obtain ⟨hfollows', htext⟩ := hfollows.pad_space
        rw [List.append_assoc, List.singleton_append, quotedFrom_pad (by decide),
          hrest hfollows' (hnext hbreak _), htext, List.append_assoc]
        rfl
      · have hpad : isPad c = false :=
          (isPad_eq_isSpace hwritable.1).trans (eq_false_of_ne_true hspace)
        exact quotedFrom_single_visible hpad hbreak hpos hquote
          (hrest (.spaces (.inl rfl)) (hnext hbreak _))

/-! ## Numbers of characters -/

/-- A digit in base sixteen. -/
def hexDigit (n : Nat) : Char := "0123456789ABCDEF".toList.getD n '0'

theorem digitIn?_hexDigit {n : Nat} (h : n < 16) : Decimal.digitIn? 16 (hexDigit n) = some n := by
  have hall : ∀ n : Fin 16, Decimal.digitIn? 16 (hexDigit n) = some n.val := by decide
  exact hall ⟨n, h⟩

theorem hexDigit_visible {n : Nat} (h : n < 16) :
    isWritable (hexDigit n) = true ∧ isBreak (hexDigit n) = false := by
  have hall : ∀ n : Fin 16, isWritable (hexDigit n) = true ∧ isBreak (hexDigit n) = false := by
    decide
  exact hall ⟨n, h⟩

/-- Digits are written from the last on, and read from the first on. -/
theorem upperHex_succ (n count : Nat) :
    upperHex n (count + 1) = hexDigit (n / 16 ^ count % 16) :: upperHex n count := by
  induction count generalizing n with
  | zero =>
    rw [Nat.pow_zero, Nat.div_one]
    rfl
  | succ count ih =>
    rw [upperHex, ih, Nat.div_div_eq_div_mul, ← Nat.pow_succ']
    rfl

theorem charOfNumber?_toNat (c : Char) : charOfNumber? c.toNat = some c := by
  have hvalid : c.toNat.isValidChar := c.valid
  rw [charOfNumber?, dif_pos hvalid]
  rfl

/-- The last digits of a number are read as what is left of it. -/
theorem quotedFrom_upperHex {n value count : Nat}
    (hchar : charOfNumber? (value * 16 ^ (count + 1) + n % 16 ^ (count + 1)) = some c)
    (hrest : quotedFrom single .word (place.after (upperHex n (count + 1))) rest =
      .ok (text, cursor)) :
    quotedFrom single (.number count value) place (upperHex n (count + 1) ++ rest) =
      .ok (c :: text, cursor) := by
  induction count generalizing value place with
  | zero =>
    have hdigit := digitIn?_hexDigit (Nat.mod_lt n (by decide : 16 > 0))
    have hnumber : value * 16 ^ (0 + 1) + n % 16 ^ (0 + 1) = 16 * value + n % 16 := by
      rw [Nat.zero_add, Nat.pow_one, Nat.mul_comm]
    rw [hnumber] at hchar
    rw [upperHex_succ, Nat.pow_zero, Nat.div_one] at hrest ⊢
    rw [List.cons_append, quotedFrom]
    simp only [hdigit, hchar]
    rw [show upperHex n 0 ++ rest = rest from rfl]
    rw [show place.next (hexDigit (n % 16)) =
      place.after (hexDigit (n % 16) :: upperHex n 0) from rfl, hrest]
    rfl
  | succ count ih =>
    have hdigit := digitIn?_hexDigit (Nat.mod_lt (n / 16 ^ (count + 1)) (by decide : 16 > 0))
    have hnumber : value * 16 ^ (count + 1 + 1) + n % 16 ^ (count + 1 + 1) =
        (16 * value + n / 16 ^ (count + 1) % 16) * 16 ^ (count + 1) + n % 16 ^ (count + 1) := by
      rw [Nat.pow_succ 16 (count + 1), Nat.mod_mul, Nat.add_mul, Nat.mul_comm (n / _ % _),
        Nat.mul_comm 16 value, Nat.mul_assoc value, Nat.mul_comm 16]
      omega
    rw [hnumber] at hchar
    rw [upperHex_succ] at hrest ⊢
    rw [List.cons_append, quotedFrom]
    simp only [hdigit]
    exact ih hchar hrest

/-! ## Between double quotes -/

/-- How a character is spelled out between double quotes: as it is, by a letter, or by
its number. -/
inductive SpelledAs (c : Char) : List Char → Prop
  | itself (hwritable : isWritable c = true) (hbreak : isBreak c = false) (hquote : c ≠ '"')
      (hescape : c ≠ '\\') :
      SpelledAs c [c]
  | letter {letter : Char} (hletter : escaped? letter = some c)
      (hwritable : isWritable letter = true) (hbreak : isBreak letter = false) :
      SpelledAs c ['\\', letter]
  | number {letter : Char} {count : Nat} (hletter : escaped? letter = none)
      (hcount : escapedDigits? letter = some (count + 1)) (hnumber : c.toNat < 16 ^ (count + 1))
      (hwritable : isWritable letter = true) (hbreak : isBreak letter = false) :
      SpelledAs c ('\\' :: letter :: upperHex c.toNat (count + 1))

theorem escaped?_of_shortEscape? {letter : Char} (h : shortEscape? c = some letter) :
    escaped? letter = some c ∧ isWritable letter = true ∧ isBreak letter = false := by
  unfold shortEscape? at h
  split at h
  all_goals
    cases h
    try decide

theorem spelledAs_doubleChar (c : Char) : SpelledAs c (doubleChar c) := by
  unfold doubleChar
  split
  · rename_i h
    simp only [Bool.and_eq_true, Bool.not_eq_true', bne_iff_ne] at h
    exact .itself h.1.1.1 h.1.1.2 h.1.2 h.2
  · split
    · rename_i letter hletter
      obtain ⟨hescaped, hwritable, hbreak⟩ := escaped?_of_shortEscape? hletter
      exact .letter hescaped hwritable hbreak
    · dsimp only
      split_ifs with htwo hfour
      · exact .number (by decide) (by decide) (Nat.lt_succ_of_le htwo) (by decide) (by decide)
      · exact .number (by decide) (by decide) (Nat.lt_succ_of_le hfour) (by decide) (by decide)
      · exact .number (by decide) (by decide) (Nat.lt_of_lt_of_le c.val.toNat_lt (by decide))
          (by decide) (by decide)

theorem SpelledAs.visible {spelling : List Char} (h : SpelledAs c spelling) :
    ∀ d ∈ spelling, isWritable d = true ∧ isBreak d = false := by
  cases h with
  | itself hwritable hbreak => simpa using ⟨hwritable, hbreak⟩
  | letter _ hwritable hbreak =>
    simp only [List.mem_cons, List.not_mem_nil, or_false, forall_eq_or_imp, forall_eq]
    exact ⟨by decide, hwritable, hbreak⟩
  | @number _ count _ _ _ hwritable hbreak =>
    simp only [List.forall_mem_cons]
    refine ⟨by decide, ⟨hwritable, hbreak⟩, ?_⟩
    induction count + 1 with
    | zero => exact List.forall_mem_nil _
    | succ count ih =>
      rw [upperHex_succ, List.forall_mem_cons]
      exact ⟨hexDigit_visible (Nat.mod_lt _ (by decide)), ih⟩

/-- A character that is no space is read as it is spelled out. -/
theorem quotedFrom_spelled {spelling : List Char} (h : SpelledAs c spelling)
    (hspace : isSpace c = false) (hcolumn : 0 < place.column)
    (hrest : quotedFrom false (.gap {}) (place.after spelling) rest = .ok (text, cursor)) :
    quotedFrom false (.gap space) place (spelling ++ rest) =
      .ok (space.text ++ c :: text, cursor) := by
  rw [← quotedFrom_word] at hrest
  cases h with
  | itself hwritable hbreak hquote hescape =>
    have hpad : isPad c = false := (isPad_eq_isSpace hwritable).trans hspace
    rw [List.singleton_append, quotedFrom_visible hpad hbreak hcolumn, if_neg Bool.false_ne_true,
      if_neg hquote, if_neg hescape]
    rw [show place.next c = place.after [c] from rfl, hrest]
    rfl
  | @letter letter hletter _ hbreak =>
    rw [List.cons_append, quotedFrom_visible (by decide) (by decide) hcolumn,
      if_neg Bool.false_ne_true, if_neg (by decide), if_pos rfl, List.singleton_append, quotedFrom,
      if_neg (by simp [hbreak])]
    simp only [hletter]
    rw [show (place.next '\\').next letter = place.after ['\\', letter] from rfl, hrest]
    rfl
  | @number letter count hletter hcount hnumber _ hbreak =>
    have hchar : charOfNumber? (0 * 16 ^ (count + 1) + c.toNat % 16 ^ (count + 1)) = some c := by
      rw [Nat.zero_mul, Nat.zero_add, Nat.mod_eq_of_lt hnumber, charOfNumber?_toNat]
    rw [List.cons_append, quotedFrom_visible (by decide) (by decide) hcolumn,
      if_neg Bool.false_ne_true, if_neg (by decide), if_pos rfl, List.cons_append, quotedFrom,
      if_neg (by simp [hbreak])]
    simp only [hletter, hcount, Nat.add_sub_cancel]
    rw [quotedFrom_upperHex hchar hrest]
    rfl

/-- Every text is read from between double quotes as it was written. -/
theorem quotedFrom_doubleChars (hcolumn : 0 < place.column) (hbreaks : space.breaks = []) :
    quotedFrom false (.gap space) place (cs.flatMap doubleChar ++ '"' :: tail) =
      .ok (space.text ++ cs, ⟨tail, place.after (cs.flatMap doubleChar ++ ['"'])⟩) := by
  induction cs generalizing space place with
  | nil =>
    rw [List.flatMap_nil, List.nil_append, quotedFrom_visible (by decide) (by decide) hcolumn,
      if_neg Bool.false_ne_true, if_pos rfl]
    rfl
  | cons c cs ih =>
    have hspelled := spelledAs_doubleChar c
    have hnext : 0 < (place.after (doubleChar c)).column := by
      rw [Place.column_after fun d hd => (hspelled.visible d hd).2]
      exact Nat.lt_of_lt_of_le hcolumn (Nat.le_add_right _ _)
    rw [List.flatMap_cons, List.append_assoc, List.append_assoc, Place.after_append]
    by_cases hspace : isSpace c = true
    · rw [isSpace_iff] at hspace
      subst hspace
      have hpad : space.pad ' ' = { space with pads := space.pads ++ [' '] } :=
        if_pos (by simp [hbreaks])
      have htext : (space.pad ' ').text = space.text ++ [' '] := by
        rw [hpad]
        simp [Gap.text, hbreaks]
      have hrest := ih hnext (show (space.pad ' ').breaks = [] by rw [hpad]; exact hbreaks)
      rw [show doubleChar ' ' = [' '] by decide] at hrest ⊢
      rw [htext, List.append_assoc] at hrest
      rw [List.singleton_append, quotedFrom_pad (by decide)]
      exact hrest
    · exact quotedFrom_spelled hspelled (eq_false_of_ne_true hspace) hcolumn (ih hnext rfl)

end BindingGraph.Yaml
