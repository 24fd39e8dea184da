import BindingGraph.Proofs.Yaml.Characters
import BindingGraph.Yaml.Scalar

/-!
# Plain scalars are read as they are written

A text that can be written plain is read up to its last character without a change, whatever
comes behind it (`plainFrom_append`): no character inside ends it. It then ends with the colon
of a key (`plainFrom_colon`), or with the line, if the next line does not go on inside the
block (`plainFrom_break`).
-/

namespace BindingGraph.Yaml

variable {c before : Char} {cs pads rest tail : List Char} {indent : Nat} {place : Place}

/-- The scalar with more text in front. -/
def PlainScalar.prepend (front : List Char) (scalar : PlainScalar) : PlainScalar :=
  { scalar with text := front ++ scalar.text }

theorem PlainScalar.map_prepend_nil (result : Except Fault PlainScalar) :
    result.map (prepend []) = result := by
  cases result <;> rfl

theorem PlainScalar.map_prepend (front more : List Char) (result : Except Fault PlainScalar) :
    (result.map (prepend more)).map (prepend front) = result.map (prepend (front ++ more)) := by
  cases result with
  | error fault => rfl
  | ok scalar => simp [Except.map, prepend]

/-! ## One character -/

theorem plainFrom_space :
    plainFrom false indent { pads } place (' ' :: rest) =
      plainFrom false indent { pads := pads ++ [' '] } (place.next ' ') rest := by
  rw [plainFrom, if_pos (by decide), if_neg (by simp)]
  rfl

/-- A character of a word goes on, with the spaces in front of it, unless it starts a comment or is
the colon behind a key. -/
theorem plainFrom_word (hpad : isPad c = false) (hbreak : isBreak c = false)
    (hgap : pads = [] ∨ (c ≠ '#' ∧ indent ≤ place.column ∧ 0 < place.column))
    (hcolon : ¬ (c = ':' ∧ endsWord rest = true)) :
    plainFrom false indent { pads } place (c :: rest) =
      (plainFrom false indent {} (place.next c) rest).map (.prepend (pads ++ [c])) := by
  have hgoes : ¬ (({ pads } : Gap) ≠ {} ∧ (c = '#' ∨ !false ∧ place.column < indent ∨
      place.column = 0 ∧ (startsDocument (c :: rest) ∨ endsDocument (c :: rest)))) := by
    rintro ⟨hne, hends⟩
    rcases hgap with rfl | ⟨hhash, hindent, hpos⟩
    · exact hne rfl
    · rcases hends with hends | ⟨-, hends⟩ | ⟨hends, -⟩
      · exact hhash hends
      · omega
      · omega
  rw [plainFrom, if_neg (by simp [hpad]), if_neg (by simp [hbreak]), if_neg hgoes, if_neg hcolon,
    if_neg (by simp), if_neg (by simp)]
  cases plainFrom false indent {} (place.next c) rest with
  | error fault => rfl
  | ok scalar =>
    refine congrArg Except.ok ?_
    simp [PlainScalar.prepend, Gap.text]

/-! ## All characters -/

/-- What stands behind the first character: no character of it ends the scalar, and the last one is
no space. -/
theorem plainFrom_inner (hinner : hasInnerIndicator (before :: cs) = false)
    (hwritable : ∀ c ∈ cs, isWritable c = true) (hbreak : ∀ c ∈ cs, isBreak c = false)
    (hlast : isSpace ((before :: cs).getLast (List.cons_ne_nil _ _)) = false)
    (hpads : pads = [] ∨ isSpace before = true) (hindent : indent ≤ place.column)
    (hcolumn : 0 < place.column) :
    plainFrom false indent { pads } place (cs ++ tail) =
      (plainFrom false indent {} (place.after cs) tail).map (.prepend (pads ++ cs)) := by
  induction cs generalizing before pads place with
  | nil =>
    have hempty : pads = [] := hpads.resolve_right fun h => by
      rw [List.getLast_singleton] at hlast
      rw [h] at hlast
      cases hlast
    subst hempty
    exact (PlainScalar.map_prepend_nil _).symm
  | cons c cs ih =>
    rw [hasInnerIndicator, Bool.or_eq_false_iff] at hinner
    rw [List.forall_mem_cons] at hwritable hbreak
    rw [List.getLast_cons (List.cons_ne_nil _ _)] at hlast
    have hnext : (place.next c).column = place.column + 1 := Place.column_next hbreak.1
    have hrest := @ih c
    rw [List.cons_append]
    by_cases hspace : isSpace c = true
    · rw [isSpace_iff] at hspace
      subst hspace
      rw [plainFrom_space,
        hrest hinner.2 hwritable.2 hbreak.2 hlast (.inr rfl) (by omega) (by omega),
        List.append_assoc]
      rfl
    · have hpad : isPad c = false :=
        (isPad_eq_isSpace hwritable.1).trans (eq_false_of_ne_true hspace)
      have hends : endsPlain before c cs = false := hinner.1
      rw [endsPlain, Bool.or_eq_false_iff] at hends
      have hcolon : ¬ (c = ':' ∧ endsWord (cs ++ tail) = true) := by
        rintro ⟨rfl, hword⟩
        have hhere := hends.1
        rw [endsWord_of_append hword] at hhere
        cases hhere
      have hgap : pads = [] ∨ (c ≠ '#' ∧ indent ≤ place.column ∧ 0 < place.column) := by
        refine hpads.imp_right fun hbefore => ⟨?_, hindent, hcolumn⟩
        rintro rfl
        have hhere := hends.2
        rw [isSpace_iff] at hbefore
        subst hbefore
        cases hhere
      rw [plainFrom_word hpad hbreak.1 hgap hcolon,
        hrest hinner.2 hwritable.2 hbreak.2 hlast (.inl rfl) (by omega) (by omega),
        PlainScalar.map_prepend, List.nil_append, List.append_assoc]
      rfl

/-- What says that a text can be written plain, for a text that is not empty. -/
structure IsPlain (c : Char) (cs : List Char) : Prop where
  writable : ∀ d ∈ c :: cs, isWritable d = true
  noBreak : ∀ d ∈ c :: cs, isBreak d = false
  first : isSpace c = false
  last : isSpace ((c :: cs).getLast (List.cons_ne_nil _ _)) = false
  noIndicator : "#,[]\x7b\x7d&*!|>'\"%@`".toList.contains c = false
  noSign : ("?:-".toList.contains c && endsWord cs) = false
  inner : hasInnerIndicator (c :: cs) = false

theorem isPlain_of_canBePlain (h : canBePlain (c :: cs) = true) : IsPlain c cs := by
  simp only [canBePlain, hasIndicator, Bool.and_eq_true, Bool.not_eq_true', Bool.or_eq_false_iff,
    List.all_eq_true, List.any_eq_false, List.head?_cons, Option.any_some,
    List.getLast?_eq_some_getLast (List.cons_ne_nil c cs), String.contains_char_eq] at h
  obtain ⟨⟨⟨⟨hwritable, hbreak⟩, hfirst⟩, hlast⟩, ⟨-, hinner⟩, hindicator, hsign⟩ := h
  exact
    { writable := hwritable
      noBreak := fun d hd => eq_false_of_ne_true (hbreak d hd)
      first := hfirst
      last := hlast
      noIndicator := by simpa using hindicator
      noSign := by simpa using hsign
      inner := hinner }

/-- A plain text is read as it is, from its first character on. -/
theorem plainFrom_append (h : IsPlain c cs) (hindent : indent ≤ place.column + 1) :
    plainFrom false indent {} place (c :: cs ++ tail) =
      (plainFrom false indent {} (place.after (c :: cs)) tail).map (.prepend (c :: cs)) := by
  have hwritable := List.forall_mem_cons.mp h.writable
  have hbreak := List.forall_mem_cons.mp h.noBreak
  have hpad : isPad c = false := (isPad_eq_isSpace hwritable.1).trans h.first
  have hnext : (place.next c).column = place.column + 1 := Place.column_next hbreak.1
  have hcolon : ¬ (c = ':' ∧ endsWord (cs ++ tail) = true) := by
    rintro ⟨rfl, hword⟩
    have hsign := h.noSign
    rw [endsWord_of_append hword] at hsign
    revert hsign
    decide
  rw [List.cons_append, plainFrom_word hpad hbreak.1 (.inl rfl) hcolon,
    plainFrom_inner h.inner hwritable.2 hbreak.2 h.last (.inl rfl) (by omega) (by omega),
    PlainScalar.map_prepend]
  rfl

/-! ## The end -/

/-- The colon behind a key ends it. -/
theorem plainFrom_colon (h : endsWord rest = true) :
    plainFrom false indent {} place (':' :: rest) = .ok ⟨[], false, ⟨':' :: rest, place⟩⟩ := by
  rw [plainFrom, if_neg (by decide), if_neg (by decide), if_neg (by simp), if_pos ⟨rfl, h⟩]
  rfl

/-- Blank characters behind the end of a line count for nothing. -/
theorem plainFrom_indentation {breaks : List Char} (hbreaks : breaks ≠ []) (count : Nat) :
    plainFrom false indent { breaks } place (List.replicate count ' ' ++ tail) =
      plainFrom false indent { breaks } (place.after (List.replicate count ' ')) tail := by
  induction count generalizing place with
  | zero => rfl
  | succ count ih =>
    rw [List.replicate_succ, List.cons_append, plainFrom, if_pos (by decide), if_neg (by simp),
      Gap.pad, if_neg (by simpa using hbreaks), ih]
    rfl

/-- A line break ends the scalar if the next line is indented less than its further lines have to
be, or if it is the last. -/
theorem plainFrom_break {count : Nat} (hcount : count < indent)
    (hstart : ∀ c ∈ tail.head?, isPad c = false ∧ isBreak c = false) :
    plainFrom false indent {} place ('\n' :: (List.replicate count ' ' ++ tail)) =
      .ok ⟨[], true, ⟨tail, (place.next '\n').after (List.replicate count ' ')⟩⟩ := by
  have hcolumn : ((place.next '\n').after (List.replicate count ' ')).column < indent := by
    rw [Place.column_after (by simp [isBreak]), Place.column_next_of_isBreak (by decide),
      List.length_replicate]
    omega
  rw [plainFrom, if_neg (by decide), if_pos (by decide), Gap.addBreak,
    plainFrom_indentation (by simp)]
  cases tail with
  | nil => rfl
  | cons c tail =>
    obtain ⟨hpad, hbreak⟩ := hstart c rfl
    rw [plainFrom, if_neg (by simp [hpad]), if_neg (by simp [hbreak]),
      if_pos ⟨by simp, .inr (.inl ⟨rfl, hcolumn⟩)⟩]
    rfl

end BindingGraph.Yaml
