import BindingGraph.Proofs.Yaml.BlockMapping
import BindingGraph.Proofs.Yaml.BlockScalar
import BindingGraph.Proofs.Yaml.QuotedScalar
import BindingGraph.Yaml.Writing

/-!
# A text written as a scalar

Whatever a text is, the line or lines written for it as a value are cut off as one
scalar with that text (`Scan.run_scalarLine`), and all their characters may stand in a
text (`isWritable_of_mem_scalarLine`).
-/

namespace BindingGraph.Yaml

variable {c : Char} {cs body tail text : List Char} {place place' : Place} {tokens : List Token}
  {columns : List Nat} {column fuel : Nat}

/-! ## How a text is written -/

namespace WritingStyle

theorem of_plain (h : ofText cs = .plain) : canBePlain cs = true ∧ cs ≠ [] := by
  unfold ofText at h
  split_ifs at h with hfeed hliteral hplain
  rw [Bool.and_eq_true, Bool.not_eq_true'] at hplain
  refine ⟨hplain.1, ?_⟩
  rintro rfl
  cases hplain.2

theorem of_single (h : ofText cs = .single) : canBeSingle cs = true ∧ '\n' ∉ cs := by
  unfold ofText at h
  split_ifs at h with hfeed hliteral hplain hsingle
  exact ⟨hsingle, fun hmem => hfeed (List.contains_iff_mem.mpr hmem)⟩

theorem of_literal (h : ofText cs = .literal) : canBeLiteral cs = true ∧ cs ≠ [] := by
  unfold ofText at h
  split_ifs at h with hfeed hliteral
  exact ⟨hliteral, List.ne_nil_of_mem (List.contains_iff_mem.mp hfeed)⟩

end WritingStyle

theorem hasPair_cons {p q : Char → Bool} (hp : p c = false) (h : hasPair p q cs = false) :
    hasPair p q (c :: cs) = false := by
  cases cs with
  | nil => rfl
  | cons d cs =>
    rw [hasPair, hp, h]
    rfl

theorem toList_scalarLine_plain {text : String} (h : WritingStyle.ofText text.toList = .plain) :
    (scalarLine text).toList = text.toList ++ ['\n'] := by
  simp [scalarLine, h]

theorem toList_scalarLine_single {text : String} (h : WritingStyle.ofText text.toList = .single) :
    (scalarLine text).toList = '\'' :: (singleBody false text.toList ++ ['\'', '\n']) := by
  simp [scalarLine, h]

theorem toList_scalarLine_double {text : String} (h : WritingStyle.ofText text.toList = .double) :
    (scalarLine text).toList = '"' :: (text.toList.flatMap doubleChar ++ ['"', '\n']) := by
  simp [scalarLine, h]

theorem toList_scalarLine_literal {text : String} (h : WritingStyle.ofText text.toList = .literal) :
    (scalarLine text).toList =
      '|' :: (literalHeader text.toList ++ '\n' :: literalBody true (blockLines text.toList)) := by
  have hlines : literalBody true (blockLines text.toList) =
      literalBody true text.toList ++ if text.toList.getLast?.any isBreak then [] else ['\n'] := by
    rw [blockLines]
    split_ifs
    · rw [List.append_nil, List.append_nil]
    · exact literalBody_append_feed _ _
  rw [hlines, scalarLine, h]
  simp

/-! ## The characters that are written -/

theorem isWritable_of_mem_indentation (afterBreak : Bool) :
    ∀ c ∈ if afterBreak then indentation else [], isWritable c = true :=
  List.all_eq_true.mp (by cases afterBreak <;> decide)

theorem isWritable_of_mem_singleBody {afterBreak : Bool} (h : ∀ c ∈ cs, isWritable c = true)
    (hfeed : '\n' ∉ cs) :
    ∀ c ∈ singleBody afterBreak cs, isWritable c = true := by
  induction cs generalizing afterBreak with
  | nil => exact isWritable_of_mem_indentation afterBreak
  | cons c cs ih =>
    rw [List.forall_mem_cons] at h
    rw [List.mem_cons, not_or] at hfeed
    cases hbreak : isBreak c with
    | true =>
      rw [singleBody_break hbreak (Ne.symm hfeed.1), List.forall_mem_cons]
      exact ⟨h.1, ih h.2 hfeed.2⟩
    | false =>
      rw [singleBody_visible hbreak, List.forall_mem_append, List.forall_mem_append]
      refine ⟨isWritable_of_mem_indentation afterBreak, ?_, ih h.2 hfeed.2⟩
      split_ifs
      · exact List.forall_mem_cons.mpr ⟨by decide, List.forall_mem_singleton.mpr h.1⟩
      · exact List.forall_mem_singleton.mpr h.1

theorem isWritable_of_mem_literalBody {afterBreak : Bool} (h : ∀ c ∈ cs, isWritable c = true) :
    ∀ c ∈ literalBody afterBreak cs, isWritable c = true := by
  induction cs generalizing afterBreak with
  | nil => exact List.forall_mem_nil _
  | cons c cs ih =>
    rw [List.forall_mem_cons] at h
    cases hbreak : isBreak c with
    | true =>
      rw [literalBody_break _ hbreak, List.forall_mem_cons]
      exact ⟨h.1, ih h.2⟩
    | false =>
      rw [literalBody_not_break _ hbreak, List.forall_mem_append, List.forall_mem_cons]
      exact ⟨isWritable_of_mem_indentation afterBreak, h.1, ih h.2⟩

theorem isWritable_of_mem_literalHeader (cs : List Char) :
    ∀ c ∈ literalHeader cs, isWritable c = true := by
  rw [literalHeader_eq, List.forall_mem_append]
  refine ⟨List.all_eq_true.mp ?_, List.all_eq_true.mp (by cases Chomp.ofText cs <;> decide)⟩
  split_ifs <;> decide

theorem isWritable_of_mem_scalarLine (text : String) :
    ∀ c ∈ (scalarLine text).toList, isWritable c = true := by
  cases hstyle : WritingStyle.ofText text.toList with
  | plain =>
    have hplain := (WritingStyle.of_plain hstyle).1
    simp only [canBePlain, Bool.and_eq_true, List.all_eq_true] at hplain
    rw [toList_scalarLine_plain hstyle, List.forall_mem_append]
    exact ⟨hplain.1.1.1.1, List.all_eq_true.mp (by decide)⟩
  | single =>
    obtain ⟨hsingle, hfeed⟩ := WritingStyle.of_single hstyle
    simp only [canBeSingle, Bool.and_eq_true, List.all_eq_true] at hsingle
    rw [toList_scalarLine_single hstyle, List.forall_mem_cons, List.forall_mem_append]
    exact ⟨by decide, isWritable_of_mem_singleBody hsingle.1.1 hfeed,
      List.all_eq_true.mp (by decide)⟩
  | double =>
    rw [toList_scalarLine_double hstyle, List.forall_mem_cons, List.forall_mem_append]
    refine ⟨by decide, fun c hc => ?_, List.all_eq_true.mp (by decide)⟩
    obtain ⟨d, -, hc⟩ := List.mem_flatMap.mp hc
    exact ((spelledAs_doubleChar d).visible c hc).1
  | literal =>
    have hliteral := (WritingStyle.of_literal hstyle).1
    simp only [canBeLiteral, Bool.and_eq_true, List.all_eq_true] at hliteral
    rw [toList_scalarLine_literal hstyle, List.forall_mem_cons, List.forall_mem_append,
      List.forall_mem_cons]
    exact ⟨by decide, isWritable_of_mem_literalHeader _, by decide,
      isWritable_of_mem_literalBody (isWritable_of_mem_blockLines hliteral.1.1)⟩

namespace Scan

/-! ## Quoted scalars and blocks -/

theorem fetch_quote (s : Scan) (single : Bool) :
    s.fetch (if single then '\'' else '"') body = s.fetchSimple (scanQuoted single) := by
  cases single <;>
  · rw [fetch, if_neg (by simp), if_neg (by simp [not_startsDocument]),
      if_neg (by simp [not_endsDocument])]
    rfl

theorem fetch_bar {s : Scan} (hflow : s.inFlow = false) : s.fetch '|' body = s.fetchBlock true := by
  rw [fetch, if_neg (by simp), if_neg (by simp [not_startsDocument]),
    if_neg (by simp [not_endsDocument])]
  simp [hflow]

/-- A value between quotes with the end of its line. -/
theorem run_quoted {single : Bool} (hcolumn : column < place.column)
    (hread : quotedFrom single .word ((place.next ' ').next (if single then '\'' else '"')) body =
      .ok (text, ⟨'\n' :: tail, place'⟩)) :
    run (fuel + 1) (atValue tokens (column :: columns)
      ⟨' ' :: (if single then '\'' else '"') :: body, place⟩) =
      run fuel (atLine (tokens ++ [.scalar (String.ofList text) .other]) (column :: columns)
        ⟨tail, place'.next '\n'⟩) := by
  have hstart : startsToken (if single then '\'' else '"') = true := by cases single <;> decide
  have hscan : (atValue tokens (column :: columns) ⟨(if single then '\'' else '"') :: body,
      place.next ' '⟩).fetchSimple (scanQuoted single) =
      .ok (atValue (tokens ++ [.scalar (String.ofList text) .other]) (column :: columns)
        ⟨'\n' :: tail, place'⟩) := by
    show (scanQuoted single ⟨(if single then '\'' else '"') :: body, place.next ' '⟩ >>= _) = _
    have hquoted : scanQuoted single ⟨(if single then '\'' else '"') :: body, place.next ' '⟩ =
        .ok (.scalar (String.ofList text) .other, ⟨'\n' :: tail, place'⟩) := by
      show (quotedFrom single .word ((place.next ' ').next (if single then '\'' else '"')) body >>=
        _) = _
      rw [hread]
      rfl
    rw [hquoted]
    rfl
  rw [run_succ (advance_atValue hstart hcolumn) rfl, fetch_quote, hscan]
  exact run_lineEnd

/-- A value that is a block, in the outermost mapping. -/
theorem run_block (hcolumn : 0 < place.column)
    (hread : blockScalar true (some 0) ⟨body, (place.next ' ').next '|'⟩ =
      .ok (text, ⟨tail, place'⟩)) :
    run (fuel + 1) (atValue tokens [0] ⟨' ' :: '|' :: body, place⟩) =
      run fuel (atLine (tokens ++ [.scalar (String.ofList text) .literal]) [0] ⟨tail, place'⟩) := by
  have hblock : (atValue tokens [0] ⟨'|' :: body, place.next ' '⟩).fetchBlock true =
      .ok (atLine (tokens ++ [.scalar (String.ofList text) .literal]) [0] ⟨tail, place'⟩) := by
    show (blockScalar true (some 0) ⟨body, (place.next ' ').next '|'⟩ >>= _) = _
    rw [hread]
    rfl
  rw [run_succ (advance_atValue (by decide) hcolumn) rfl, fetch_bar rfl, hblock]
  rfl

/-! ## All styles -/

/-- The lines of a text as the value of a key of the outermost mapping. -/
theorem run_scalarLine (text : String) (hcolumn : 0 < place.column) (hnext : NextLine 0 tail) :
    ∃ style place', place'.column = 0 ∧
      run (fuel + 1) (atValue tokens [0] ⟨' ' :: ((scalarLine text).toList ++ tail), place⟩) =
        run fuel (atLine (tokens ++ [.scalar text style]) [0] ⟨tail, place'⟩) := by
  have hfeed (place : Place) : (place.next '\n').column = 0 :=
    Place.column_next_of_isBreak (by decide)
  have hquotes (quote : Char) (hquote : isBreak quote = false) :
      0 < ((place.next ' ').next quote).column := by
    rw [Place.column_next hquote]
    exact Nat.succ_pos _
  have htext : String.ofList text.toList = text := String.ofList_toList
  cases hstyle : WritingStyle.ofText text.toList with
  | plain =>
    obtain ⟨hplain, hne⟩ := WritingStyle.of_plain hstyle
    obtain ⟨c, cs, hcs⟩ := List.exists_cons_of_ne_nil hne
    rw [hcs] at hplain
    obtain ⟨place', hzero, hrun⟩ := @run_plain c cs tail place tokens [] 0 fuel text hcs
      (isPlain_of_canBePlain hplain) hcolumn hnext
    rw [toList_scalarLine_plain hstyle, List.append_assoc]
    exact ⟨.plain, place', hzero, hrun⟩
  | single =>
    obtain ⟨hsingle, hnone⟩ := WritingStyle.of_single hstyle
    simp only [canBeSingle, Bool.and_eq_true, Bool.not_eq_true', List.all_eq_true] at hsingle
    obtain ⟨⟨hwritable, hbreakSpace⟩, hspaceBreak⟩ := hsingle
    -- The opening quote stands in front of the text, and is neither space nor break.
    have hread :=
      @quotedFrom_singleBody false '\'' text.toList ('\n' :: tail) ((place.next ' ').next '\'') {}
      (.spaces (.inl rfl)) (by decide) hwritable hnone (hasPair_cons (by decide) hbreakSpace)
      (hasPair_cons (by decide) hspaceBreak) (.inr (hquotes _ (by decide))) (by simp)
    rw [← quotedFrom_word] at hread
    have hrun := @run_quoted _ tail _ place _ tokens [] 0 fuel true hcolumn hread
    rw [show ({} : Gap).text ++ text.toList = text.toList from rfl, htext] at hrun
    rw [toList_scalarLine_single hstyle, List.cons_append, List.append_assoc]
    exact ⟨.other, _, hfeed _, hrun⟩
  | double =>
    have hread := @quotedFrom_doubleChars text.toList ('\n' :: tail) ((place.next ' ').next '"') {}
      (hquotes _ (by decide)) rfl
    rw [← quotedFrom_word] at hread
    have hrun := @run_quoted _ tail _ place _ tokens [] 0 fuel false hcolumn hread
    rw [show ({} : Gap).text ++ text.toList = text.toList from rfl, htext] at hrun
    rw [toList_scalarLine_double hstyle, List.cons_append, List.append_assoc]
    exact ⟨.other, _, hfeed _, hrun⟩
  | literal =>
    obtain ⟨hliteral, hne⟩ := WritingStyle.of_literal hstyle
    simp only [canBeLiteral, Bool.and_eq_true, List.all_eq_true] at hliteral
    obtain ⟨place', hzero, hread⟩ :=
      @blockScalar_literal text.toList tail ((place.next ' ').next '|')
      hliteral.1.1 hne hnext.head?
    have hrun := @run_block _ tail _ place place' tokens fuel hcolumn hread
    rw [htext] at hrun
    rw [toList_scalarLine_literal hstyle, List.cons_append, List.append_assoc, List.cons_append]
    exact ⟨.literal, place', hzero, hrun⟩

end Scan

end BindingGraph.Yaml
