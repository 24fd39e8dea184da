import BindingGraph.Text.Blank

/-!
# Words as maximal runs

The words of a text are its maximal runs of characters that are not blank (`maximalRuns_iff`), so
the blank characters around them do not matter. Words that are joined by single spaces come apart
again (`maximalRuns_intercalate`).
-/

namespace BindingGraph.Text

variable {cs : List Char} {runs : List String} {run : String}

/-- A text that can stand between blank characters as one word. -/
def IsWord (word : String) : Prop := word ≠ "" ∧ ∀ c ∈ word.toList, isBlank c = false

instance (word : String) : Decidable (IsWord word) :=
  decidable_of_iff (word ≠ "" ∧ word.toList.all (!isBlank ·) = true) (by simp [IsWord])

/-- `MaximalRuns cs runs`: what `cs` consists of beside blank characters are the words `runs`, in
order. No run can be extended: the next character, if there is one, is blank, and so is the one
before a further run. -/
inductive MaximalRuns : List Char → List String → Prop
  | nil : MaximalRuns [] []
  | blank {c : Char} {cs : List Char} {runs : List String} (hblank : isBlank c = true)
      (hrest : MaximalRuns cs runs) : MaximalRuns (c :: cs) runs
  | run {run : String} {cs : List Char} {runs : List String} (hrun : IsWord run)
      (hend : ∀ c ∈ cs.head?, isBlank c = true) (hrest : MaximalRuns cs runs) :
      MaximalRuns (run.toList ++ cs) (run :: runs)

theorem MaximalRuns.isWord (h : MaximalRuns cs runs) : ∀ run ∈ runs, IsWord run := by
  induction h with
  | nil =>
    intro run hrun
    cases hrun
  | blank _ _ ih => exact ih
  | run hword _ _ ih =>
    intro run hrun
    rcases List.mem_cons.mp hrun with rfl | hrun
    · exact hword
    · exact ih run hrun

/-! ## The words of a text -/

/-- The words that characters make. -/
def wordsOf (cs : List Char) : List String :=
  ((cs.splitOnP isBlank).filter (!·.isEmpty)).map String.ofList

theorem wordsOf_append_blank {c : Char} (hc : isBlank c = true) (front back : List Char) :
    wordsOf (front ++ c :: back) = wordsOf front ++ wordsOf back := by
  rw [wordsOf, List.splitOnP_append_cons front back hc, List.filter_append, List.map_append]
  rfl

theorem wordsOf_blank {c : Char} (hc : isBlank c = true) (cs : List Char) :
    wordsOf (c :: cs) = wordsOf cs :=
  wordsOf_append_blank hc [] cs

theorem wordsOf_toList (hrun : IsWord run) : wordsOf run.toList = [run] := by
  have hne : run.toList ≠ [] := fun hnil => hrun.1 (String.toList_eq_nil_iff.mp hnil)
  rw [wordsOf, List.splitOnP_eq_singleton hrun.2]
  simp [hne]

theorem wordsOf_run (hrun : IsWord run) (hend : ∀ c ∈ cs.head?, isBlank c = true) :
    wordsOf (run.toList ++ cs) = run :: wordsOf cs := by
  cases cs with
  | nil =>
    rw [List.append_nil, wordsOf_toList hrun]
    rfl
  | cons c cs =>
    have hc : isBlank c = true := hend c rfl
    rw [wordsOf_append_blank hc, wordsOf_toList hrun, wordsOf_blank hc]
    rfl

theorem MaximalRuns.wordsOf_eq (h : MaximalRuns cs runs) : wordsOf cs = runs := by
  induction h with
  | nil => rfl
  | blank hblank _ ih => rw [wordsOf_blank hblank, ih]
  | run hrun hend _ ih => rw [wordsOf_run hrun hend, ih]

theorem isWord_singleton {c : Char} (hc : isBlank c = false) : IsWord (String.singleton c) := by
  refine ⟨by simp, ?_⟩
  intro d hd
  rw [String.toList_singleton, List.mem_singleton] at hd
  rw [hd, hc]

theorem IsWord.cons {c : Char} (hrun : IsWord run) (hc : isBlank c = false) :
    IsWord (String.singleton c ++ run) := by
  refine ⟨by simp, ?_⟩
  intro d hd
  rw [String.toList_append, String.toList_singleton] at hd
  rcases List.mem_cons.mp hd with rfl | hd
  · exact hc
  · exact hrun.2 d hd

/-- A character that is not blank is a run of its own before the end or a blank character. -/
theorem MaximalRuns.single {c : Char} (h : MaximalRuns cs runs) (hc : isBlank c = false)
    (hend : ∀ d ∈ cs.head?, isBlank d = true) :
    MaximalRuns (c :: cs) (String.singleton c :: runs) := by
  have hrun := MaximalRuns.run (isWord_singleton hc) hend h
  rwa [String.toList_singleton] at hrun

theorem MaximalRuns.cons (h : MaximalRuns cs runs) (c : Char) :
    ∃ longer, MaximalRuns (c :: cs) longer := by
  cases hc : isBlank c with
  | true => exact ⟨runs, .blank hc h⟩
  | false =>
    cases h with
    | nil => exact ⟨_, MaximalRuns.nil.single hc fun d hd => by cases hd⟩
    | blank hblank hrest =>
      refine ⟨_, (MaximalRuns.blank hblank hrest).single hc ?_⟩
      rintro d ⟨⟩
      exact hblank
    | @run first cs rest hrun hend hrest =>
      -- The character belongs to the run that stands first.
      have hlonger := MaximalRuns.run (hrun.cons hc) hend hrest
      rw [String.toList_append, String.toList_singleton, List.append_assoc] at hlonger
      exact ⟨_, hlonger⟩

theorem exists_maximalRuns (cs : List Char) : ∃ runs, MaximalRuns cs runs := by
  induction cs with
  | nil => exact ⟨[], .nil⟩
  | cons c cs ih =>
    obtain ⟨runs, hruns⟩ := ih
    exact hruns.cons c

theorem maximalRuns_words (text : String) : MaximalRuns text.toList (words text) := by
  obtain ⟨runs, hruns⟩ := exists_maximalRuns text.toList
  have heq : words text = runs := hruns.wordsOf_eq
  rwa [heq]

/-- The words of a text are its maximal runs, and it has no others. -/
theorem maximalRuns_iff {text : String} : MaximalRuns text.toList runs ↔ words text = runs := by
  constructor
  · exact MaximalRuns.wordsOf_eq
  · rintro rfl
    exact maximalRuns_words text

/-! ## Words on a line -/

theorem maximalRuns_intercalate (h : ∀ run ∈ runs, IsWord run) :
    MaximalRuns (" ".intercalate runs).toList runs := by
  induction runs with
  | nil => exact .nil
  | cons run runs ih =>
    have hrun := h run List.mem_cons_self
    have hrest := ih fun other hother => h other (List.mem_cons_of_mem _ hother)
    cases runs with
    | nil =>
      have halone := MaximalRuns.run hrun (fun c hc => by cases hc) .nil
      rwa [List.append_nil] at halone
    | cons next runs =>
      rw [String.intercalate_cons_cons, String.toList_append, String.toList_append,
        List.append_assoc]
      refine .run hrun ?_ (.blank rfl hrest)
      rintro c ⟨⟩
      rfl

end BindingGraph.Text
