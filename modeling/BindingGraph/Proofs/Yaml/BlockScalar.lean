import BindingGraph.Proofs.Files.Steps
import BindingGraph.Proofs.Yaml.Characters
import BindingGraph.Yaml.Scalar

/-!
# Blocks of lines are read as they are written

Reading a block passes over the indentation and keeps each line break back until it is clear what
follows (`BlockState.pending`), so at each moment what has been read and what is kept back is the
text so far (`blockFrom_literalBody`). The sign in the header is chosen such that the end of the
block gives the rest (`blockScalar_literal`).
-/

namespace BindingGraph.Yaml

variable {c : Char} {cs rest tail text : List Char} {place : Place} {cursor : Cursor}
  {state last : BlockState}

/-! ## One character of the text -/

namespace BlockState

/-- The line breaks that are kept back. -/
def pending (state : BlockState) : List Char :=
  if state.inLine then [] else state.ending.toList ++ state.empty

/-- The state behind a character of the text. -/
def pass (state : BlockState) (c : Char) : BlockState :=
  if isBreak c then
    if state.inLine then { state with inLine := false, ending := some c, empty := [] }
    else { state with empty := state.empty ++ [c] }
  else if state.inLine then state
  else { inLine := true, padded := isPad c }

theorem inLine_pass (state : BlockState) (c : Char) : (state.pass c).inLine = !isBreak c := by
  cases hbreak : isBreak c <;> cases hline : state.inLine <;> simp [pass, hbreak, hline]

theorem pending_pass_of_isBreak (h : isBreak c = true) :
    (state.pass c).pending = state.pending ++ [c] := by
  cases hline : state.inLine <;> simp [pass, pending, h, hline]

theorem pending_pass_of_not_isBreak (h : isBreak c = false) : (state.pass c).pending = [] := by
  rw [pending, inLine_pass, h]
  rfl

/-- Outside a line nothing of the next one has been read. -/
def IsPlaced (state : BlockState) (place : Place) : Prop := state.inLine = false → place.column = 0

theorem IsPlaced.pass (state : BlockState) (c : Char) (place : Place) :
    (state.pass c).IsPlaced (place.next c) := by
  intro hline
  rw [inLine_pass, Bool.not_eq_false'] at hline
  exact Place.column_next_of_isBreak hline

end BlockState

/-- A break goes to those that are kept back. -/
theorem blockFrom_break (hbreak : isBreak c = true) :
    blockFrom true 2 state place (c :: rest) =
      blockFrom true 2 (state.pass c) (place.next c) rest := by
  have hpad : isPad c = false := eq_false_of_ne_true fun hpad => by
    rw [not_isBreak_of_isPad hpad] at hbreak
    cases hbreak
  rw [isPad, Bool.or_eq_false_iff, beq_eq_false_iff_ne, beq_eq_false_iff_ne] at hpad
  rw [blockFrom, BlockState.pass, if_pos hbreak]
  cases hline : state.inLine with
  | true => rw [if_pos rfl, if_pos hbreak, if_pos rfl]
  | false =>
    rw [if_neg Bool.false_ne_true, if_neg (by simp [hpad.1]), if_neg (by simp [hpad.2]),
      if_pos hbreak, if_pos hbreak, if_neg Bool.false_ne_true]

theorem blockFrom_inLine (hline : state.inLine = true) (hbreak : isBreak c = false)
    (hrest : blockFrom true 2 (state.pass c) (place.next c) rest = .ok (text, last, cursor)) :
    blockFrom true 2 state place (c :: rest) = .ok (c :: text, last, cursor) := by
  rw [BlockState.pass, if_neg (by simp [hbreak]), if_pos hline] at hrest
  rw [blockFrom, if_pos hline, if_neg (by simp [hbreak])]
  dsimp only
  rw [hrest]
  rfl

/-- The first character of a line takes the breaks with it that were kept back. -/
theorem blockFrom_lineStart (hline : state.inLine = false) (hcolumn : place.column = 0)
    (htab : c ≠ '\t') (hbreak : isBreak c = false)
    (hrest : blockFrom true 2 (state.pass c) (place.after (indentation ++ [c])) rest =
      .ok (text, last, cursor)) :
    blockFrom true 2 state place (indentation ++ c :: rest) =
      .ok (state.pending ++ c :: text, last, cursor) := by
  have hfirst : (place.next ' ').column = 1 := by rw [Place.column_next (by decide), hcolumn]
  have hsecond : ((place.next ' ').next ' ').column = 2 := by
    rw [Place.column_next (by decide), hfirst]
  have hplace : ((place.next ' ').next ' ').next c = place.after (indentation ++ [c]) := rfl
  rw [BlockState.pass, if_neg (by simp [hbreak]), if_neg (by simp [hline])] at hrest
  show blockFrom true 2 state place (' ' :: ' ' :: c :: rest) = _
  rw [blockFrom, if_neg (by simp [hline]), if_pos ⟨rfl, by omega⟩, blockFrom,
    if_neg (by simp [hline]), if_pos ⟨rfl, by omega⟩, blockFrom, if_neg (by simp [hline]),
    if_neg (by omega), if_neg (by simp [htab]), if_neg (by simp [hbreak]), if_pos hsecond, hplace]
  dsimp only
  rw [hrest]
  simp [Except.map, BlockState.lead, BlockState.pending, hline]

/-! ## All characters -/

theorem literalBody_break (afterBreak : Bool) (h : isBreak c = true) :
    literalBody afterBreak (c :: cs) = c :: literalBody true cs := by
  rw [literalBody, if_pos h]

theorem literalBody_not_break (afterBreak : Bool) (h : isBreak c = false) :
    literalBody afterBreak (c :: cs) =
      (if afterBreak then indentation else []) ++ c :: literalBody false cs := by
  rw [literalBody, if_neg (by simp [h])]

theorem literalBody_append_feed (afterBreak : Bool) (cs : List Char) :
    literalBody afterBreak (cs ++ ['\n']) = literalBody afterBreak cs ++ ['\n'] := by
  induction cs generalizing afterBreak with
  | nil => rfl
  | cons c cs ih =>
    rw [List.cons_append]
    cases hbreak : isBreak c with
    | true => rw [literalBody_break _ hbreak, literalBody_break _ hbreak, ih, List.cons_append]
    | false =>
      rw [literalBody_not_break _ hbreak, literalBody_not_break _ hbreak, ih, List.append_assoc,
        List.cons_append]

theorem BlockState.IsPlaced.after (hplaced : state.IsPlaced place) :
    (cs.foldl .pass state).IsPlaced (place.after (literalBody (!state.inLine) cs)) := by
  induction cs generalizing state place with
  | nil => exact hplaced
  | cons c cs ih =>
    have hline := inLine_pass state c
    rw [List.foldl_cons]
    cases hbreak : isBreak c with
    | true =>
      rw [hbreak, Bool.not_true] at hline
      have hrest := ih (.pass state c place)
      rw [hline] at hrest
      rw [literalBody_break _ hbreak]
      exact hrest
    | false =>
      rw [hbreak, Bool.not_false] at hline
      have hrest := ih (.pass state c (place.after (if !state.inLine then indentation else [])))
      rw [hline] at hrest
      rw [literalBody_not_break _ hbreak, Place.after_append]
      exact hrest

/-- What has been read of a text and what is kept back of it is all of it. -/
theorem blockFrom_literalBody (hwritable : ∀ c ∈ cs, isWritable c = true)
    (hplaced : state.IsPlaced place)
    (hrest : blockFrom true 2 (cs.foldl .pass state)
      (place.after (literalBody (!state.inLine) cs)) tail =
      .ok (text, last, cursor)) :
    ∃ front, front ++ (cs.foldl .pass state).pending = state.pending ++ cs ∧
      blockFrom true 2 state place (literalBody (!state.inLine) cs ++ tail) =
        .ok (front ++ text, last, cursor) := by
  induction cs generalizing state place with
  | nil => exact ⟨[], (List.append_nil _).symm, hrest⟩
  | cons c cs ih =>
    rw [List.forall_mem_cons] at hwritable
    rw [List.foldl_cons] at hrest ⊢
    have hline := BlockState.inLine_pass state c
    cases hbreak : isBreak c with
    | true =>
      rw [hbreak, Bool.not_true] at hline
      rw [literalBody_break _ hbreak, Place.after_cons] at hrest
      have hread := @ih (place.next c) (state.pass c) hwritable.2 (.pass state c place)
      rw [hline, Bool.not_false, BlockState.pending_pass_of_isBreak hbreak, List.append_assoc]
        at hread
      obtain ⟨front, hfront, hread⟩ := hread hrest
      refine ⟨front, hfront, ?_⟩
      rw [literalBody_break _ hbreak, List.cons_append, blockFrom_break hbreak, hread]
    | false =>
      rw [hbreak, Bool.not_false] at hline
      rw [literalBody_not_break _ hbreak, Place.after_append, Place.after_cons] at hrest
      have hread := @ih ((place.after (if !state.inLine then indentation else [])).next c)
        (state.pass c) hwritable.2
        (.pass state c _)
      rw [hline, Bool.not_true, BlockState.pending_pass_of_not_isBreak hbreak, List.nil_append]
        at hread
      obtain ⟨front, hfront, hread⟩ := hread hrest
      refine ⟨state.pending ++ c :: front, by rw [List.append_assoc, List.cons_append, hfront], ?_⟩
      rw [literalBody_not_break _ hbreak, List.append_assoc, List.cons_append, List.append_assoc,
        List.cons_append]
      cases hstart : state.inLine with
      | true =>
        rw [hstart] at hread
        rw [BlockState.pending, if_pos hstart]
        exact blockFrom_inLine hstart hbreak hread
      | false =>
        rw [hstart] at hread
        exact blockFrom_lineStart hstart (hplaced hstart)
          (ne_of_isWritable hwritable.1 (by decide)) hbreak hread

/-- A line that starts with a character of a word at the first column is not part of the block. -/
theorem blockFrom_end (hline : state.inLine = false) (hcolumn : place.column = 0)
    (htail : ∀ c ∈ tail.head?, isPad c = false ∧ isBreak c = false) :
    blockFrom true 2 state place tail = .ok ([], state, ⟨tail, place⟩) := by
  cases tail with
  | nil => rfl
  | cons c tail =>
    obtain ⟨hpad, hbreak⟩ := htail c rfl
    rw [isPad, Bool.or_eq_false_iff, beq_eq_false_iff_ne, beq_eq_false_iff_ne] at hpad
    rw [blockFrom, if_neg (by simp [hline]), if_neg (by simp [hpad.1]), if_neg (by simp [hpad.2]),
      if_neg (by simp [hbreak]), if_neg (by omega)]

/-! ## The header and the end -/

/-- How the end of a text is marked. -/
def Chomp.ofText (cs : List Char) : Chomp :=
  match cs.reverse with
  | [] => .strip
  | [c] => if isBreak c then .keep else .strip
  | c :: d :: _ => if isBreak c then if isBreak d then .keep else .clip else .strip

/-- The sign in the header. -/
def Chomp.sign : Chomp → List Char
  | .strip => ['-']
  | .clip => []
  | .keep => ['+']

/-- What of the breaks at the end belongs to the text. -/
def Chomp.kept (chomp : Chomp) (state : BlockState) : List Char :=
  match chomp with
  | .strip => []
  | .clip => state.ending.toList
  | .keep => state.ending.toList ++ state.empty

theorem literalHeader_eq (cs : List Char) :
    literalHeader cs =
      (if cs.head?.any (fun c => isSpace c || isBreak c) then ['2'] else []) ++
      (Chomp.ofText cs).sign := by
  rw [literalHeader, Chomp.ofText]
  congr 1
  rcases cs.reverse with _ | ⟨c, _ | ⟨d, more⟩⟩
  · rfl
  · dsimp only
    split_ifs <;> rfl
  · dsimp only
    split_ifs <;> rfl

theorem read_header (shown : Bool) (chomp : Chomp) (rest : List Char) (place : Place) :
    BlockHeader.read ⟨(if shown then ['2'] else []) ++ chomp.sign ++ '\n' :: rest, place⟩ =
      .ok (⟨chomp, if shown then some 2 else none⟩,
        ⟨'\n' :: rest, place.after ((if shown then ['2'] else []) ++ chomp.sign)⟩) := by
  cases shown <;> cases chomp <;> rfl

/-- The lines of a text, the last of which always ends. -/
def blockLines (cs : List Char) : List Char := cs ++ if cs.getLast?.any isBreak then [] else ['\n']

theorem isWritable_of_mem_blockLines (h : ∀ c ∈ cs, isWritable c = true) :
    ∀ c ∈ blockLines cs, isWritable c = true := by
  rw [blockLines, List.forall_mem_append]
  refine ⟨h, List.all_eq_true.mp ?_⟩
  split_ifs <;> decide

/-- The state behind the lines of a text. -/
def blockEnd (lines : List Char) : BlockState := lines.foldl .pass {}

theorem blockEnd_concat (lines : List Char) (c : Char) :
    blockEnd (lines ++ [c]) = (blockEnd lines).pass c :=
  List.foldl_concat ..

/-- The marked end gives the rest of the text to what has been read when the block is over. -/
theorem front_append_kept {front : List Char} (hne : cs ≠ [])
    (h : front ++ (blockEnd (blockLines cs)).pending = blockLines cs) :
    front ++ (Chomp.ofText cs).kept (blockEnd (blockLines cs)) = cs := by
  obtain rfl | ⟨before, c, rfl⟩ := List.eq_nil_or_concat cs
  · exact absurd rfl hne
  rw [List.concat_eq_append] at h ⊢
  cases hbreak : isBreak c with
  | false =>
    have hlines : blockLines (before ++ [c]) = before ++ [c] ++ ['\n'] := by
      simp [blockLines, hbreak]
    have hchomp : Chomp.ofText (before ++ [c]) = .strip := by
      cases hrev : before.reverse <;> simp [Chomp.ofText, hbreak, hrev]
    have hpending : (blockEnd (before ++ [c] ++ ['\n'])).pending = ['\n'] := by
      rw [blockEnd_concat, BlockState.pending_pass_of_isBreak (by decide), blockEnd_concat,
        BlockState.pending_pass_of_not_isBreak hbreak]
      rfl
    rw [hlines, hpending, List.append_left_inj] at h
    rw [hchomp, h]
    exact List.append_nil _
  | true =>
    have hlines : blockLines (before ++ [c]) = before ++ [c] := by simp [blockLines, hbreak]
    rw [hlines] at h ⊢
    have hkeep : (blockEnd (before ++ [c])).pending =
        Chomp.keep.kept (blockEnd (before ++ [c])) := by
      rw [BlockState.pending, blockEnd_concat, BlockState.inLine_pass, hbreak]
      rfl
    suffices hkept : (Chomp.ofText (before ++ [c])).kept (blockEnd (before ++ [c])) =
        (blockEnd (before ++ [c])).pending by rw [hkept, h]
    obtain rfl | ⟨before, d, rfl⟩ := List.eq_nil_or_concat before
    · have hchomp : Chomp.ofText ([] ++ [c]) = .keep := by simp [Chomp.ofText, hbreak]
      rw [hchomp, hkeep]
    · rw [List.concat_eq_append] at hkeep ⊢
      cases hline : isBreak d with
      | true =>
        have hchomp : Chomp.ofText (before ++ [d] ++ [c]) = .keep := by
          simp [Chomp.ofText, hbreak, hline]
        rw [hchomp, hkeep]
      | false =>
        have hchomp : Chomp.ofText (before ++ [d] ++ [c]) = .clip := by
          simp [Chomp.ofText, hbreak, hline]
        have hin : (blockEnd (before ++ [d])).inLine = true := by
          rw [blockEnd_concat, BlockState.inLine_pass, hline]
          rfl
        rw [hchomp, hkeep, blockEnd_concat, BlockState.pass, if_pos hbreak, if_pos hin]
        rfl

/-- The indentation is shown by the first line, or said in the header. -/
theorem shownIndent_literalBody (hwritable : isWritable c = true) (hspace : isSpace c = false)
    (hbreak : isBreak c = false) :
    shownIndent 1 0 0 (literalBody true (c :: cs) ++ tail) = .ok 2 := by
  have hpad : isPad c = false := (isPad_eq_isSpace hwritable).trans hspace
  rw [isPad, Bool.or_eq_false_iff, beq_eq_false_iff_ne, beq_eq_false_iff_ne] at hpad
  rw [literalBody_not_break _ hbreak]
  show shownIndent 1 2 0 (c :: (literalBody false cs ++ tail)) = _
  rw [shownIndent, if_neg (by simp [hbreak])]
  · rfl
  · exact hpad.1
  · exact hpad.2

theorem inLine_blockEnd (hne : cs ≠ []) : (blockEnd (blockLines cs)).inLine = false := by
  obtain rfl | ⟨before, c, rfl⟩ := List.eq_nil_or_concat cs
  · exact absurd rfl hne
  rw [List.concat_eq_append]
  cases hbreak : isBreak c with
  | false =>
    have hlines : blockLines (before ++ [c]) = before ++ [c] ++ ['\n'] := by
      simp [blockLines, hbreak]
    rw [hlines, blockEnd_concat, BlockState.inLine_pass]
    rfl
  | true =>
    have hlines : blockLines (before ++ [c]) = before ++ [c] := by simp [blockLines, hbreak]
    rw [hlines, blockEnd_concat, BlockState.inLine_pass, hbreak]
    rfl

/-- A text is read from its block as it was written, in front of a line that is not indented. -/
theorem blockScalar_literal (hwritable : ∀ c ∈ cs, isWritable c = true) (hne : cs ≠ [])
    (htail : ∀ c ∈ tail.head?, isPad c = false ∧ isBreak c = false) :
    ∃ place', place'.column = 0 ∧
      blockScalar true (some 0) ⟨literalHeader cs ++ '\n' ::
        (literalBody true (blockLines cs) ++ tail), place⟩ =
        .ok (cs, ⟨tail, place'⟩) := by
  let body := (place.after (literalHeader cs)).next '\n'
  have hplaced : ({} : BlockState).IsPlaced body :=
    fun _ => Place.column_next_of_isBreak (by decide)
  have hend := inLine_blockEnd hne
  have hcolumn : (body.after (literalBody true (blockLines cs))).column = 0 := hplaced.after hend
  obtain ⟨front, hfront, hread⟩ :=
    blockFrom_literalBody (isWritable_of_mem_blockLines hwritable) hplaced
     (blockFrom_end hend hcolumn htail)
  have hread : blockFrom true 2 {} body (literalBody true (blockLines cs) ++ tail) =
      .ok (front, blockEnd (blockLines cs),
        ⟨tail, body.after (literalBody true (blockLines cs))⟩) := by
    rw [List.append_nil] at hread
    exact hread
  refine ⟨_, hcolumn, ?_⟩
  have hheader := read_header (cs.head?.any fun c => isSpace c || isBreak c) (Chomp.ofText cs)
    (literalBody true (blockLines cs) ++ tail) place
  rw [← literalHeader_eq] at hheader
  have hkept : (Except.ok (front ++ (Chomp.ofText cs).kept (blockEnd (blockLines cs)),
      ⟨tail, body.after (literalBody true (blockLines cs))⟩) : Except Fault (List Char × Cursor)) =
        .ok (cs, ⟨tail, body.after (literalBody true (blockLines cs))⟩) := by
    rw [front_append_kept hne hfront]
  refine bind_eq_ok_iff.mpr ⟨_, hheader, ?_⟩
  cases hshown : cs.head?.any fun c => isSpace c || isBreak c with
  | true => exact bind_eq_ok_iff.mpr ⟨2, rfl, bind_eq_ok_iff.mpr ⟨_, hread, hkept⟩⟩
  | false =>
    have hindent : shownIndent 1 0 0 (literalBody true (blockLines cs) ++ tail) = .ok 2 := by
      obtain ⟨c, more, rfl⟩ := List.exists_cons_of_ne_nil hne
      rw [List.head?_cons, Option.any_some, Bool.or_eq_false_iff] at hshown
      exact shownIndent_literalBody (hwritable c List.mem_cons_self) hshown.1 hshown.2
    exact bind_eq_ok_iff.mpr ⟨2, hindent, bind_eq_ok_iff.mpr ⟨_, hread, hkept⟩⟩

end BindingGraph.Yaml
