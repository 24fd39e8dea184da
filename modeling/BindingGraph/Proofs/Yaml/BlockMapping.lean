import BindingGraph.Proofs.Yaml.PlainScalar
import BindingGraph.Yaml.Token
import Mathlib.Data.List.TakeWhile

/-!
# The lines of a block mapping

A line of a mapping is cut into the tokens of its key, in front of which the mapping opens if it is
the first line (`Scan.run_key`), and of its value, which may be plain (`Scan.run_plain`) or lines of
its own (`Scan.run_lineEnd`). When nothing is left all mappings close (`Scan.run_end`).
-/

namespace BindingGraph.Yaml

variable {c : Char} {cs word rest tail lines : List Char} {place : Place} {tokens : List Token}
  {columns : List Nat} {column count fuel : Nat}

/-! ## Words -/

/-- Letters, digits, hyphens and underscores, of which the first is a letter or a digit. -/
def IsWord (cs : List Char) : Prop :=
  ∃ c rest, cs = c :: rest ∧ c.isAlphanum = true ∧ ∀ d ∈ rest, isNameChar d = true

theorem IsWord.isNameChar_of_mem (h : IsWord cs) : ∀ c ∈ cs, isNameChar c = true := by
  obtain ⟨c, rest, rfl, hfirst, hrest⟩ := h
  exact List.forall_mem_cons.mpr ⟨by simp [isNameChar, hfirst], hrest⟩

theorem IsWord.isWritable_of_mem (h : IsWord cs) : ∀ c ∈ cs, isWritable c = true :=
  fun c hc => isWritable_of_isNameChar (h.isNameChar_of_mem c hc)

theorem hasInnerIndicator_of_isNameChar (before : Char) (h : ∀ c ∈ cs, isNameChar c = true) :
    hasInnerIndicator (before :: cs) = false := by
  induction cs generalizing before with
  | nil => rfl
  | cons c cs ih =>
    rw [List.forall_mem_cons] at h
    rw [hasInnerIndicator, endsPlain, ih c h.2,
      beq_eq_false_iff_ne.mpr (ne_of_isNameChar h.1 (by decide)),
      beq_eq_false_iff_ne.mpr (ne_of_isNameChar h.1 (by decide))]
    rfl

/-- A word may stand plain. -/
theorem isPlain_of_isWord (hfirst : c.isAlphanum = true) (hname : ∀ d ∈ cs, isNameChar d = true) :
    IsPlain c cs := by
  have hc : isNameChar c = true := by simp [isNameChar, hfirst]
  have hall : ∀ d ∈ c :: cs, isNameChar d = true := List.forall_mem_cons.mpr ⟨hc, hname⟩
  have hindicators : "#,[]\x7b\x7d&*!|>'\"%@`".toList.all (!isNameChar ·) = true := by decide
  have hsigns : "?:-".toList.all (!·.isAlphanum) = true := by decide
  exact
    { writable := fun d hd => isWritable_of_isNameChar (hall d hd)
      noBreak := fun d hd => not_isBreak_of_isNameChar (hall d hd)
      first := not_isSpace_of_isNameChar hc
      last := not_isSpace_of_isNameChar (hall _ (List.getLast_mem _))
      noIndicator := by
        rw [List.contains_eq_mem, decide_eq_false_iff_not]
        intro hmem
        have hnot := List.all_eq_true.mp hindicators c hmem
        rw [hc] at hnot
        cases hnot
      noSign := by
        rw [Bool.and_eq_false_iff, List.contains_eq_mem, decide_eq_false_iff_not]
        left
        intro hmem
        have hnot := List.all_eq_true.mp hsigns c hmem
        rw [hfirst] at hnot
        cases hnot
      inner := hasInnerIndicator_of_isNameChar c hname }

namespace Scan

/-! ## Steps -/

/-- In front of a line. -/
def atLine (tokens : List Token) (columns : List Nat) (cursor : Cursor) : Scan :=
  { cursor, indents := columns, tokens }

/-- Behind the colon of a key. -/
def atValue (tokens : List Token) (columns : List Nat) (cursor : Cursor) : Scan :=
  { cursor, indents := columns, keyAllowed := false, tokens }

/-- What follows depends on what stands behind the space. -/
theorem run_congr {s s' : Scan} (h : s.skipSpace = s'.skipSpace) : run fuel s = run fuel s' := by
  have hadvance : s.advance = s'.advance := by rw [advance, advance, h]
  cases fuel <;> rw [run, run, hadvance]

theorem closeBlocks_eq_self {s : Scan} (h : ∀ indent ∈ s.indents.head?, indent ≤ column) :
    s.closeBlocks (some column) = s := by
  obtain ⟨cursor, indents, keyAllowed, candidate, outer, tokens⟩ := s
  rw [closeBlocks]
  split_ifs
  · rfl
  · cases indents with
    | nil => simp
    | cons indent indents =>
      have hout : ¬ column < indent := Nat.not_lt.mpr (h indent rfl)
      simp [hout]

theorem dropStale_eq_self {s : Scan} (houter : s.outer = [])
    (hfresh : ∀ candidate ∈ s.candidate, s.cursor.place.line ≤ candidate.place.line ∧
      s.cursor.place.index ≤ candidate.place.index + 1024) : s.dropStale = .ok s := by
  obtain ⟨cursor, indents, keyAllowed, candidate, outer, tokens⟩ := s
  dsimp only at houter hfresh
  subst houter
  cases candidate with
  | none => rfl
  | some candidate =>
    obtain ⟨hline, hindex⟩ := hfresh candidate rfl
    have hrefresh : refresh cursor.place (some candidate) = .ok (some candidate) :=
      if_neg (by omega)
    simp only [dropStale, hrefresh]
    rfl

theorem advance_eq {s s' : Scan} (hspace : s.skipSpace = s') (houter : s'.outer = [])
    (hfresh : ∀ candidate ∈ s'.candidate, s'.cursor.place.line ≤ candidate.place.line ∧
      s'.cursor.place.index ≤ candidate.place.index + 1024)
    (hcolumn : ∀ indent ∈ s'.indents.head?, indent ≤ s'.column) : s.advance = .ok s' := by
  rw [advance, hspace, dropStale_eq_self houter hfresh]
  exact congrArg Except.ok (closeBlocks_eq_self hcolumn)

theorem run_succ {s s' : Scan} (hadvance : s.advance = .ok s')
    (hrest : s'.cursor.rest = c :: rest) :
    run (fuel + 1) s = (s'.fetch c rest >>= run fuel) := by
  obtain ⟨⟨chars, place⟩, indents, keyAllowed, candidate, outer, tokens⟩ := s'
  obtain rfl : chars = c :: rest := hrest
  rw [run, hadvance]
  rfl

/-! ## Space -/

/-- Characters that are no space between tokens. -/
def startsToken (c : Char) : Bool := !isBreak c && c != '#' && !isPad c && c != byteOrderMark

theorem spaceFrom_spaces (inFlow keyAllowed : Bool) (count : Nat) :
    spaceFrom inFlow keyAllowed false place (List.replicate count ' ' ++ rest) =
      spaceFrom inFlow keyAllowed false (place.after (List.replicate count ' ')) rest := by
  induction count generalizing place with
  | zero => rfl
  | succ count ih =>
    rw [List.replicate_succ, List.cons_append, spaceFrom, if_neg (by decide), if_neg (by decide),
      if_neg (by decide), if_pos (.inl rfl), ih]
    rfl

theorem spaceFrom_startsToken (inFlow keyAllowed : Bool) (h : startsToken c = true) :
    spaceFrom inFlow keyAllowed false place (c :: rest) = (keyAllowed, ⟨c :: rest, place⟩) := by
  simp only [startsToken, isPad, Bool.and_eq_true, Bool.not_eq_true', Bool.or_eq_false_iff,
    bne_iff_ne, beq_eq_false_iff_ne] at h
  obtain ⟨⟨⟨hbreak, hhash⟩, hspace, htab⟩, hmark⟩ := h
  rw [spaceFrom, if_neg (by simp [hbreak]), if_neg (by decide), if_neg hhash,
    if_neg (by simp [hspace, htab, hmark])]

theorem startsToken_of_isPlain (h : IsPlain c cs) : startsToken c = true := by
  have hwritable := h.writable c List.mem_cons_self
  have hhash : c ≠ '#' := by
    rintro rfl
    have := h.noIndicator
    revert this
    decide
  have hmark : c ≠ byteOrderMark := ne_of_isWritable hwritable (by decide)
  simp [startsToken, h.noBreak c List.mem_cons_self, (isPad_eq_isSpace hwritable).trans h.first,
    hhash, hmark]

/-! ## Plain scalars -/

/-- A character that may start a plain scalar does, away from the start of a line or as a letter
or digit. -/
theorem fetch_plain {s : Scan} (h : IsPlain c cs) (hflow : s.inFlow = false)
    (hstart : s.column ≠ 0 ∨ c.isAlphanum = true) : s.fetch c (cs ++ tail) = s.fetchPlain := by
  have hnot (d : Char) (hd : "#,[]\x7b\x7d&*!|>'\"%@`".toList.contains d = true) : c ≠ d := by
    rintro rfl
    rw [h.noIndicator] at hd
    cases hd
  have hindicator : isIndicator c = false := by
    rw [isIndicator, String.contains_char_eq, decide_eq_false_iff_not]
    intro hmem
    have hsame : ",[]\x7b\x7d#&*!|>'\"%@`".toList.all
        ("#,[]\x7b\x7d&*!|>'\"%@`".toList.contains ·) = true := by
      decide
    have hc := List.all_eq_true.mp hsame c hmem
    rw [h.noIndicator] at hc
    cases hc
  have hpad : isPad c = false := (isPad_eq_isSpace (h.writable c List.mem_cons_self)).trans h.first
  have hsign (d : Char) (hd : "?:-".toList.contains d = true) :
      ¬ (c = d ∧ endsWord (cs ++ tail) = true) := by
    rintro ⟨rfl, hword⟩
    have hsign := h.noSign
    rw [hd, endsWord_of_append hword] at hsign
    cases hsign
  have hmark : ¬ (s.column = 0 ∧ startsDocument (c :: (cs ++ tail)) = true) :=
    fun ⟨hzero, hmark⟩ => by
    have hc : c ≠ '-' := by
      rintro rfl
      exact absurd (hstart.resolve_left fun h => h hzero) (by decide)
    rw [not_startsDocument hc] at hmark
    cases hmark
  have hend : ¬ (s.column = 0 ∧ endsDocument (c :: (cs ++ tail)) = true) := fun ⟨hzero, hmark⟩ => by
    have hc : c ≠ '.' := by
      rintro rfl
      exact absurd (hstart.resolve_left fun h => h hzero) (by decide)
    rw [not_endsDocument hc] at hmark
    cases hmark
  rw [fetch, if_neg fun h => hnot '%' (by decide) h.2, if_neg hmark, if_neg hend,
    if_neg (hnot '[' (by decide)), if_neg (hnot '{' (by decide)), if_neg (hnot ']' (by decide)),
    if_neg (hnot '}' (by decide)), if_neg (hnot ',' (by decide)), if_neg (hsign '-' (by decide)),
    if_neg (fun h => hsign '?' (by decide) (h.imp_right (·.resolve_left (by simp [hflow])))),
    if_neg (fun h => hsign ':' (by decide) (h.imp_right (·.resolve_left (by simp [hflow])))),
    if_neg (hnot '*' (by decide)), if_neg (hnot '&' (by decide)), if_neg (hnot '!' (by decide)),
    if_neg (fun h => hnot '|' (by decide) h.1), if_neg (fun h => hnot '>' (by decide) h.1),
    if_neg (hnot '\'' (by decide)), if_neg (hnot '"' (by decide)),
    if_neg (by simp [hindicator, hpad])]

/-- A plain text becomes a scalar, up to where its reading ends. -/
theorem fetchPlain_eq {s s' : Scan} {after : PlainScalar} (h : IsPlain c cs)
    (hsave : s.saveCandidate = .ok s') (hflow : s'.inFlow = false)
    (hrest : s'.cursor.rest = c :: cs ++ tail)
    (hcolumn : ∀ indent ∈ s'.indents.head?, indent ≤ s'.column)
    (hread : plainFrom false (s'.indents.head?.elim 0 (· + 1)) {}
      (s'.cursor.place.after (c :: cs)) tail =
      .ok after) (hempty : after.text = []) :
    s.fetchPlain = .ok { s'.push (.scalar (String.ofList (c :: cs)) .plain) after.cursor with
      keyAllowed := after.broken } := by
  have hindent : s'.indents.head?.elim 0 (· + 1) ≤ s'.cursor.place.column + 1 := by
    cases hhead : s'.indents.head? with
    | none => exact Nat.zero_le _
    | some indent => exact Nat.succ_le_succ (hcolumn indent hhead)
  rw [fetchPlain, hsave]
  show (plainFrom s'.inFlow (s'.indents.head?.elim 0 (· + 1)) {} s'.cursor.place s'.cursor.rest >>=
    fun scalar => Except.ok
      { s'.push (.scalar (String.ofList scalar.text) .plain) scalar.cursor with
        keyAllowed := scalar.broken }) = _
  rw [hflow, hrest, plainFrom_append h hindent, hread]
  show Except.ok _ = _
  rw [PlainScalar.prepend, hempty, List.append_nil]

/-! ## Keys -/

/-- What opens in front of a key at a column. -/
def opening (columns : List Nat) (column : Nat) : List Token :=
  if columns.head?.any (column ≤ ·) then [] else [.mappingStart]

/-- The open blocks behind a key at a column. -/
def opened (columns : List Nat) (column : Nat) : List Nat :=
  if columns.head?.any (column ≤ ·) then columns else column :: columns

/-- A scalar that may turn out to be a key, in front of a colon. -/
def behindName (tokens : List Token) (columns : List Nat) (key : List Char) (required : Bool)
    (start : Place) (cursor : Cursor) : Scan :=
  { cursor
    indents := columns
    keyAllowed := false
    candidate := some ⟨required, tokens.length, start⟩
    tokens := tokens ++ [.scalar (String.ofList key) .plain] }

theorem fetchPlain_atLine (hplain : IsPlain c cs)
    (hcolumns : ∀ indent ∈ columns.head?, indent ≤ place.column) (hrest : endsWord rest = true) :
    (atLine tokens columns ⟨c :: cs ++ ':' :: rest, place⟩).fetchPlain =
      .ok (behindName tokens columns (c :: cs) (columns.head? == some place.column) place
        ⟨':' :: rest, place.after (c :: cs)⟩) := by
  have hsave : (atLine tokens columns ⟨c :: cs ++ ':' :: rest, place⟩).saveCandidate =
      .ok { atLine tokens columns ⟨c :: cs ++ ':' :: rest, place⟩ with
        candidate := some ⟨columns.head? == some place.column, tokens.length, place⟩ } := rfl
  exact fetchPlain_eq hplain hsave rfl rfl hcolumns (plainFrom_colon hrest) rfl

/-- The colon makes the name in front of it a key. -/
theorem fetchValue_behindName (tokens : List Token) (columns : List Nat) (key : List Char)
    (required : Bool) (start : Place) (cursor : Cursor) :
    (behindName tokens columns key required start cursor).fetchValue =
      .ok (atValue (tokens ++ opening columns start.column ++
        [.key, .scalar (String.ofList key) .plain, .value]) (opened columns start.column)
          (cursor.skip 1)) := by
  rw [fetchValue, behindName]
  simp only [insertAt, List.take_left, List.drop_left, openBlock, inFlow, List.isEmpty_nil,
    Bool.not_true, Bool.false_or, opening, opened]
  split_ifs
  · simp [push, atValue]
    rfl
  · simp [push, atValue]
    rfl

theorem fetch_colon {s : Scan} (hrest : endsWord rest = true) :
    s.fetch ':' rest = s.fetchValue := by
  rw [fetch, if_neg (by simp), if_neg (by simp [not_startsDocument]),
    if_neg (by simp [not_endsDocument]), if_neg (by decide), if_neg (by decide), if_neg (by decide),
    if_neg (by decide), if_neg (by decide), if_neg (by simp), if_neg (by simp),
    if_pos ⟨rfl, .inr hrest⟩]

theorem advance_behindName {required : Bool}
    (hcolumns : ∀ indent ∈ columns.head?, indent ≤ place.column) (hplain : IsPlain c cs)
    (hlength : (c :: cs).length ≤ 256) :
    (behindName tokens columns (c :: cs) required place
      ⟨':' :: rest, place.after (c :: cs)⟩).advance =
      .ok (behindName tokens columns (c :: cs) required place
        ⟨':' :: rest, place.after (c :: cs)⟩) := by
  refine advance_eq rfl rfl ?_ ?_
  · rintro candidate ⟨⟩
    have hindex := place.index_after_le (c :: cs)
    refine ⟨Nat.le_of_eq (Place.line_after hplain.noBreak), ?_⟩
    show (place.after (c :: cs)).index ≤ place.index + 1024
    omega
  · intro indent hindent
    show indent ≤ (place.after (c :: cs)).column
    rw [Place.column_after hplain.noBreak]
    exact Nat.le_trans (hcolumns indent hindent) (Nat.le_add_right _ _)

/-- The line of a key, which stands at the column of the open mapping or further in. -/
theorem run_key {name : String} (hname : IsWord name.toList) (hlength : name.toList.length ≤ 256)
    (hcolumn : place.column = 0) (hcolumns : ∀ indent ∈ columns.head?, indent ≤ count)
    (hrest : endsWord rest = true) :
    ∃ place', count < place'.column ∧
      run (fuel + 2) (atLine tokens columns
        ⟨List.replicate count ' ' ++ (name.toList ++ ':' :: rest), place⟩) =
        run fuel (atValue (tokens ++ opening columns count ++ [.key, .scalar name .plain, .value])
          (opened columns count) ⟨rest, place'⟩) := by
  obtain ⟨c, cs, hcs, hfirst, hword⟩ := hname
  have hplain := isPlain_of_isWord hfirst hword
  have htext : String.ofList (c :: cs) = name := by rw [← hcs, String.ofList_toList]
  let start := place.after (List.replicate count ' ')
  have hstart : start.column = count := by
    rw [Place.column_after (by simp [isBreak]), hcolumn, List.length_replicate, Nat.zero_add]
  have hcolumns' : ∀ indent ∈ columns.head?, indent ≤ start.column := by
    rw [hstart]
    exact hcolumns
  rw [hcs] at hlength ⊢
  have hspace : (atLine tokens columns
      ⟨List.replicate count ' ' ++ (c :: cs ++ ':' :: rest), place⟩).skipSpace =
      atLine tokens columns ⟨c :: cs ++ ':' :: rest, start⟩ := by
    rw [skipSpace]
    simp only [atLine, spaceFrom_spaces, List.cons_append,
      spaceFrom_startsToken _ _ (startsToken_of_isPlain hplain)]
    rfl
  refine ⟨(start.after (c :: cs)).next ':', ?_, ?_⟩
  · rw [Place.column_next (by decide), Place.column_after hplain.noBreak, hstart]
    omega
  · rw [run_succ (advance_eq hspace rfl (by rintro _ ⟨⟩) hcolumns') List.cons_append,
      fetch_plain hplain rfl (.inr hfirst), fetchPlain_atLine hplain hcolumns' hrest]
    show run (fuel + 1) _ = _
    rw [run_succ (advance_behindName hcolumns' hplain hlength) rfl, fetch_colon hrest,
      fetchValue_behindName, hstart, htext]
    rfl

/-- Behind a key whose value stands on lines of its own. -/
theorem run_lineEnd :
    run fuel (atValue tokens columns ⟨'\n' :: rest, place⟩) =
      run fuel (atLine tokens columns ⟨rest, place.next '\n'⟩) :=
  run_congr rfl

/-! ## Values -/

/-- Behind the space in front of a value. -/
theorem advance_atValue (hstart : startsToken c = true) (hcolumn : column < place.column) :
    (atValue tokens (column :: columns) ⟨' ' :: c :: rest, place⟩).advance =
      .ok (atValue tokens (column :: columns) ⟨c :: rest, place.next ' '⟩) := by
  have hnext : (place.next ' ').column = place.column + 1 := Place.column_next (by decide)
  refine advance_eq ?_ rfl (by rintro _ ⟨⟩) ?_
  · have hspace := @spaceFrom_spaces (c :: rest) place false false 1
    rw [spaceFrom_startsToken _ _ hstart] at hspace
    have hspace' : spaceFrom false false false place (' ' :: c :: rest) =
        (false, ⟨c :: rest, place.next ' '⟩) :=
      hspace
    simp only [skipSpace, atValue, inFlow, List.isEmpty_nil, Bool.not_true, hspace']
  · rintro indent ⟨⟩
    show column ≤ (place.next ' ').column
    omega

/-- `NextLine column lines`: the lines start with a word no further in than a column, or there
are none. -/
def NextLine (column : Nat) (lines : List Char) : Prop :=
  ∃ count word, lines = List.replicate count ' ' ++ word ∧ count ≤ column ∧
    ∀ c ∈ word.head?, isPad c = false ∧ isBreak c = false

theorem NextLine.head? (h : NextLine 0 lines) :
    ∀ c ∈ lines.head?, isPad c = false ∧ isBreak c = false := by
  obtain ⟨count, word, rfl, hcount, hword⟩ := h
  obtain rfl := Nat.le_zero.mp hcount
  exact hword

theorem nextLine_of_isWord (hword : IsWord word) (hcount : count ≤ column) :
    NextLine column (List.replicate count ' ' ++ (word ++ tail)) := by
  obtain ⟨c, rest, rfl, hfirst, -⟩ := hword
  have hc : isNameChar c = true := by simp [isNameChar, hfirst]
  refine ⟨count, _, rfl, hcount, ?_⟩
  rintro d ⟨⟩
  exact ⟨not_isPad_of_isNameChar hc, not_isBreak_of_isNameChar hc⟩

theorem nextLine_nil (column : Nat) : NextLine column [] := ⟨0, [], rfl, Nat.zero_le _, nofun⟩

theorem fetchPlain_atValue {broken : Bool} {cursor : Cursor} (hplain : IsPlain c cs)
    (hcolumn : column < place.column)
    (hread : plainFrom false (column + 1) {} (place.after (c :: cs)) tail =
      .ok ⟨[], broken, cursor⟩) :
    (atValue tokens (column :: columns) ⟨c :: cs ++ tail, place⟩).fetchPlain =
      .ok { atValue (tokens ++ [.scalar (String.ofList (c :: cs)) .plain])
        (column :: columns) cursor with
        keyAllowed := broken } := by
  have hsave : (atValue tokens (column :: columns) ⟨c :: cs ++ tail, place⟩).saveCandidate =
      .ok (atValue tokens (column :: columns) ⟨c :: cs ++ tail, place⟩) := rfl
  refine fetchPlain_eq hplain hsave rfl rfl ?_ hread rfl
  rintro indent ⟨⟩
  exact Nat.le_of_lt hcolumn

/-- A plain value with the end of its line. -/
theorem run_plain {text : String} (htext : text.toList = c :: cs) (hplain : IsPlain c cs)
    (hcolumn : column < place.column) (hnext : NextLine column lines) :
    ∃ place', place'.column = 0 ∧
      run (fuel + 1) (atValue tokens (column :: columns)
        ⟨' ' :: (text.toList ++ '\n' :: lines), place⟩) =
        run fuel (atLine (tokens ++ [.scalar text .plain]) (column :: columns)
          ⟨lines, place'⟩) := by
  obtain ⟨count, word, rfl, hcount, hword⟩ := hnext
  have hspace : (place.next ' ').column = place.column + 1 := Place.column_next (by decide)
  have hread := @plainFrom_break word (column + 1) ((place.next ' ').after (c :: cs)) count
    (Nat.lt_succ_of_le hcount) hword
  have haway : (atValue tokens (column :: columns)
      ⟨c :: cs ++ '\n' :: (List.replicate count ' ' ++ word), place.next ' '⟩).column ≠ 0 := by
    show (place.next ' ').column ≠ 0
    omega
  refine ⟨((place.next ' ').after (c :: cs)).next '\n', Place.column_next_of_isBreak (by decide),
    ?_⟩
  rw [htext, List.cons_append,
    run_succ (advance_atValue (startsToken_of_isPlain hplain) hcolumn) rfl, ← List.cons_append,
    fetch_plain hplain rfl (.inl haway), fetchPlain_atValue hplain (by omega) hread, ← htext,
    String.ofList_toList]
  show run fuel _ = _
  refine run_congr ?_
  rw [skipSpace, skipSpace]
  simp only [atLine, spaceFrom_spaces]
  rfl

/-! ## The end -/

/-- When nothing is left, all blocks close. -/
theorem run_end :
    run fuel (atLine tokens columns ⟨[], place⟩) =
      .ok (tokens ++ List.replicate columns.length .blockEnd) := by
  have hadvance : (atLine tokens columns ⟨[], place⟩).advance =
      .ok ((atLine tokens columns ⟨[], place⟩).closeBlocks (some place.column)) := rfl
  have hfinish : ((atLine tokens columns ⟨[], place⟩).closeBlocks (some place.column)).finish =
      .ok (tokens ++ List.replicate columns.length .blockEnd) := by
    have hlength :=
      congrArg List.length (@List.takeWhile_append_dropWhile _ (decide <| place.column < ·) columns)
    rw [List.length_append] at hlength
    have hall (columns : List Nat) : columns.takeWhile (fun _ => true) = columns :=
      List.takeWhile_eq_self_iff.mpr fun _ _ => rfl
    simp only [finish, closeBlocks, atLine, inFlow, List.isEmpty_nil, Bool.not_true,
      Bool.false_eq_true, if_false, hall, List.append_assoc, List.replicate_append_replicate,
      hlength]
    rfl
  cases fuel with
  | zero =>
    rw [run, hadvance]
    exact hfinish
  | succ fuel =>
    rw [run, hadvance]
    exact hfinish

end Scan

end BindingGraph.Yaml
