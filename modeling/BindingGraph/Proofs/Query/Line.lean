import BindingGraph.Proofs.Text.Words
import BindingGraph.Query.Line
import Mathlib.Data.List.Forall2
import Mathlib.Tactic.SplitIfs

/-!
# Which lines are queries

A line is told by its words alone: it is a query exactly if the first word names a kind, up to the
case of ASCII letters, and the others are as many as this kind takes; each way of not being one has
its own error (`ofLine_by_runs`). Writing a query and reading the line gives the query back exactly
if its parameters are words, as those of a query that has been read always are (`ofLine_text`).
-/

namespace BindingGraph

/-! ## Letters in both cases -/

namespace Text

/-- The same character, or the capital and the small form of one ASCII letter: the capital letters
have the numbers 65 to 90, and the small form of each stands 32 further on. -/
def SameLetter (a b : Char) : Prop :=
  a = b ∨ (65 ≤ a.toNat ∧ a.toNat ≤ 90 ∧ b.toNat = a.toNat + 32) ∨
    (65 ≤ b.toNat ∧ b.toNat ≤ 90 ∧ a.toNat = b.toNat + 32)

/-- The same text up to the case of ASCII letters. -/
def SameLetters (a b : String) : Prop := List.Forall₂ SameLetter a.toList b.toList

theorem toNat_toLower (c : Char) :
    c.toLower.toNat = if 65 ≤ c.toNat ∧ c.toNat ≤ 90 then c.toNat + 32 else c.toNat := by
  have hupper : c.val ≥ 'A'.val ∧ c.val ≤ 'Z'.val ↔ 65 ≤ c.toNat ∧ c.toNat ≤ 90 := by
    rw [ge_iff_le, UInt32.le_iff_toNat_le, UInt32.le_iff_toNat_le]
    exact Iff.rfl
  unfold Char.toLower
  split
  · rename_i h
    have hbounds := hupper.mp h
    rw [if_pos hbounds]
    show (c.val + ('a'.val - 'A'.val)).toNat = _
    rw [UInt32.toNat_add, show ('a'.val - 'A'.val).toNat = 32 from rfl]
    show (c.toNat + 32) % 2 ^ 32 = _
    omega
  · rename_i h
    rw [if_neg (mt hupper.mpr h)]

theorem toLower_eq_iff {a b : Char} : a.toLower = b.toLower ↔ SameLetter a b := by
  rw [← Char.toNat_inj, toNat_toLower, toNat_toLower, SameLetter, ← Char.toNat_inj]
  split_ifs <;> omega

theorem sameUpToCase_iff {a b : String} : sameUpToCase a b = true ↔ SameLetters a b := by
  have hletter : (fun a b : Char => a.toLower = b.toLower) = SameLetter := by
    funext a b
    exact propext toLower_eq_iff
  rw [sameUpToCase, beq_iff_eq, SameLetters, ← List.forall₂_eq_eq_eq, List.forall₂_map_left_iff,
    List.forall₂_map_right_iff, hletter]

end Text

/-! ## Kinds and parameters -/

namespace QueryKind

theorem eq_of_sameUpToCase {a b : QueryKind} {text : String}
    (ha : Text.sameUpToCase a.name text = true) (hb : Text.sameUpToCase b.name text = true) :
    a = b := by
  have hnames : a.name.toList.map Char.toLower = b.name.toList.map Char.toLower :=
    (beq_iff_eq.mp ha).trans (beq_iff_eq.mp hb).symm
  revert hnames
  cases a <;> cases b <;> decide

theorem sameUpToCase_of_ofName? {text : String} {kind : QueryKind} (h : ofName? text = some kind) :
    Text.sameUpToCase kind.name text = true :=
  List.find?_some (p := fun kind : QueryKind => Text.sameUpToCase kind.name text) h

/-- A text names a kind if it is the kind's name up to the case of ASCII letters, and it names
no other. -/
theorem ofName?_eq_some_iff {text : String} {kind : QueryKind} :
    ofName? text = some kind ↔ Text.SameLetters kind.name text := by
  rw [← Text.sameUpToCase_iff]
  constructor
  · exact sameUpToCase_of_ofName?
  · intro h
    cases hfound : ofName? text with
    | none => exact absurd h (List.find?_eq_none.mp hfound kind (mem_all kind))
    | some other => rw [eq_of_sameUpToCase (sameUpToCase_of_ofName? hfound) h]

theorem ofName?_eq_none_iff {text : String} :
    ofName? text = none ↔ ∀ kind : QueryKind, ¬ Text.SameLetters kind.name text := by
  rw [Option.eq_none_iff_forall_ne_some]
  exact forall_congr' fun kind => not_congr ofName?_eq_some_iff

theorem ofName?_name (kind : QueryKind) : ofName? kind.name = some kind := by
  cases kind <;> decide

theorem isWord_name (kind : QueryKind) : Text.IsWord kind.name := by
  cases kind <;> decide

end QueryKind

namespace Query

variable {kind : QueryKind} {parameters tokens : List String} {query : Query} {first line : String}

theorem ofParameters_eq_ok_iff :
    ofParameters kind parameters = .ok query ↔
      query.kind = kind ∧ query.parameters = parameters := by
  constructor
  · exact kind_parameters_of_ofParameters
  · rintro ⟨rfl, rfl⟩
    exact ofParameters_kind_parameters query

theorem ofParameters_of_length_ne (h : parameters.length ≠ kind.arity) :
    ofParameters kind parameters = .error (.arityMismatch kind kind.arity parameters.length) := by
  unfold ofParameters
  split
  case h_6 => rfl
  all_goals exact absurd rfl h

theorem exists_ofParameters_of_length_eq (h : parameters.length = kind.arity) :
    ∃ query, ofParameters kind parameters = .ok query := by
  cases kind with
  | allPaths | somePath =>
    obtain ⟨source, target, rfl⟩ := List.length_eq_two.mp h
    exact ⟨_, rfl⟩
  | dependencies | dependents | member =>
    obtain ⟨node, rfl⟩ := List.length_eq_one_iff.mp h
    exact ⟨_, rfl⟩

theorem ofWords_of_sameLetters (h : Text.SameLetters kind.name first) (parameters : List String) :
    ofWords first parameters = ofParameters kind parameters := by
  rw [ofWords, QueryKind.ofName?_eq_some_iff.mpr h]

theorem ofWords_of_no_kind (h : ∀ kind : QueryKind, ¬ Text.SameLetters kind.name first)
    (parameters : List String) : ofWords first parameters = .error (.unknownKind first) := by
  rw [ofWords, QueryKind.ofName?_eq_none_iff.mpr h]

/-! ## Reading a line -/

theorem ofLine_of_no_runs (h : Text.MaximalRuns line.toList []) : ofLine line = .error .empty := by
  rw [ofLine, Text.maximalRuns_iff.mp h]

theorem ofLine_of_runs (h : Text.MaximalRuns line.toList (first :: parameters)) :
    ofLine line = (ofWords first parameters).mapError .invalid := by
  rw [ofLine, Text.maximalRuns_iff.mp h]

/-- What words are read as. The kind is looked at before the number of parameters. -/
inductive ReadAs : List String → Except LineError Query → Prop
  | empty : ReadAs [] (.error .empty)
  | query {query : Query} {first : String} (hfirst : Text.SameLetters query.kind.name first) :
      ReadAs (first :: query.parameters) (.ok query)
  | unknownKind {first : String} {parameters : List String}
      (hnone : ∀ kind : QueryKind, ¬ Text.SameLetters kind.name first) :
      ReadAs (first :: parameters) (.error (.invalid (.unknownKind first)))
  | arityMismatch {kind : QueryKind} {first : String} {parameters : List String}
      (hfirst : Text.SameLetters kind.name first) (hne : parameters.length ≠ kind.arity) :
      ReadAs (first :: parameters)
        (.error (.invalid (.arityMismatch kind kind.arity parameters.length)))

section Outcomes

variable {outcome : Except LineError Query} (h : Text.MaximalRuns line.toList tokens)
include h

theorem readAs_ofLine : ReadAs tokens (ofLine line) := by
  cases tokens with
  | nil =>
    rw [ofLine_of_no_runs h]
    exact .empty
  | cons first parameters =>
    rw [ofLine_of_runs h]
    by_cases hnone : ∀ kind : QueryKind, ¬ Text.SameLetters kind.name first
    · rw [ofWords_of_no_kind hnone]
      exact .unknownKind hnone
    · obtain ⟨kind, hkind⟩ := not_forall_not.mp hnone
      rw [ofWords_of_sameLetters hkind]
      by_cases hfits : parameters.length = kind.arity
      · obtain ⟨query, hquery⟩ := exists_ofParameters_of_length_eq hfits
        rw [hquery]
        obtain ⟨rfl, rfl⟩ := ofParameters_eq_ok_iff.mp hquery
        exact .query hkind
      · rw [ofParameters_of_length_ne hfits]
        exact .arityMismatch hkind hfits

/-- A line is read as what its runs are read as, and that is only one thing. -/
theorem ofLine_eq_iff : ofLine line = outcome ↔ ReadAs tokens outcome := by
  constructor
  · rintro rfl
    exact readAs_ofLine h
  · intro hread
    cases hread with
    | empty => exact ofLine_of_no_runs h
    | query hfirst =>
      rw [ofLine_of_runs h, ofWords_of_sameLetters hfirst, ofParameters_kind_parameters]
      rfl
    | unknownKind hnone =>
      rw [ofLine_of_runs h, ofWords_of_no_kind hnone]
      rfl
    | arityMismatch hfirst hne =>
      rw [ofLine_of_runs h, ofWords_of_sameLetters hfirst, ofParameters_of_length_ne hne]
      rfl

theorem ofLine_eq_ok_iff :
    ofLine line = .ok query ↔
      ∃ first, tokens = first :: query.parameters ∧ Text.SameLetters query.kind.name first ∧
        query.parameters.length = query.kind.arity := by
  rw [ofLine_eq_iff h]
  constructor
  · rintro ⟨⟩
    exact ⟨_, rfl, ‹_›, query.length_parameters⟩
  · rintro ⟨first, rfl, hfirst, -⟩
    exact .query hfirst

theorem ofLine_eq_empty_iff : ofLine line = .error .empty ↔ tokens = [] := by
  rw [ofLine_eq_iff h]
  constructor
  · rintro ⟨⟩
    rfl
  · rintro rfl
    exact .empty

theorem ofLine_eq_unknownKind_iff :
    ofLine line = .error (.invalid (.unknownKind first)) ↔
      (∃ parameters, tokens = first :: parameters) ∧
        ∀ kind : QueryKind, ¬ Text.SameLetters kind.name first := by
  rw [ofLine_eq_iff h]
  constructor
  · rintro ⟨⟩
    exact ⟨⟨_, rfl⟩, ‹_›⟩
  · rintro ⟨⟨parameters, rfl⟩, hnone⟩
    exact .unknownKind hnone

theorem ofLine_eq_arityMismatch_iff {expected actual : Nat} :
    ofLine line = .error (.invalid (.arityMismatch kind expected actual)) ↔
      ∃ first parameters, tokens = first :: parameters ∧ Text.SameLetters kind.name first ∧
        parameters.length ≠ kind.arity ∧ expected = kind.arity ∧ actual = parameters.length := by
  rw [ofLine_eq_iff h]
  constructor
  · rintro ⟨⟩
    exact ⟨_, _, rfl, ‹_›, ‹_›, rfl, rfl⟩
  · rintro ⟨first, parameters, rfl, hfirst, hne, rfl, rfl⟩
    exact .arityMismatch hfirst hne

end Outcomes

/-- **Which lines are queries.** Every line has its runs of characters that are not blank, which are
the words it is told by: it is a query if the first one is the name of a kind, in any case of ASCII
letters, and the others are the parameters and as many as the kind takes; it is empty if there is
none; the kind is unknown, whatever follows, if the first one is no name of a kind; and else the
number of parameters is reported. Another line with the same runs is read as the same. -/
theorem ofLine_by_runs (line : String) :
    ∃ tokens, (∀ runs, Text.MaximalRuns line.toList runs ↔ runs = tokens) ∧
      (∀ query, ofLine line = .ok query ↔
        ∃ first, tokens = first :: query.parameters ∧ Text.SameLetters query.kind.name first ∧
          query.parameters.length = query.kind.arity) ∧
      (ofLine line = .error .empty ↔ tokens = []) ∧
      (∀ first, ofLine line = .error (.invalid (.unknownKind first)) ↔
        (∃ parameters, tokens = first :: parameters) ∧
          ∀ kind : QueryKind, ¬ Text.SameLetters kind.name first) ∧
      (∀ kind expected actual,
        ofLine line = .error (.invalid (.arityMismatch kind expected actual)) ↔
          ∃ first parameters, tokens = first :: parameters ∧ Text.SameLetters kind.name first ∧
            parameters.length ≠ kind.arity ∧ expected = kind.arity ∧ actual = parameters.length) ∧
      ∀ other : String, Text.MaximalRuns other.toList tokens → ofLine other = ofLine line := by
  have hruns := Text.maximalRuns_words line
  refine ⟨Text.words line, ?_, fun _ => ofLine_eq_ok_iff hruns, ofLine_eq_empty_iff hruns,
    fun _ => ofLine_eq_unknownKind_iff hruns, fun _ _ _ => ofLine_eq_arityMismatch_iff hruns, ?_⟩
  · intro runs
    rw [Text.maximalRuns_iff, eq_comm]
  · intro other hother
    exact (ofLine_eq_iff hother).mpr (readAs_ofLine hruns)

/-- Any blank characters separate words, but only ASCII letters have two cases: `ſ` is no `s`,
though it becomes one in capitals. -/
theorem ofLine_by_runs_unusual :
    ofLine "\u2003DePs\u00A0a\u0085" = .ok (.dependencies "a") ∧
      ofLine "depſ a b" = .error (.invalid (.unknownKind "depſ")) ∧
      ofLine "EXISTS\ta\u3000b" = .error (.invalid (.arityMismatch .member 1 2)) := by
  refine ⟨?_, ?_, ?_⟩
  · obtain ⟨tokens, hruns, hquery, -⟩ := ofLine_by_runs "\u2003DePs\u00A0a\u0085"
    have htokens : ["DePs", "a"] = tokens :=
      (hruns _).mp (Text.maximalRuns_iff.mpr (by decide +kernel))
    exact (hquery _).mpr ⟨"DePs", htokens.symm, Text.sameUpToCase_iff.mp (by decide), rfl⟩
  · obtain ⟨tokens, hruns, -, -, hunknown, -⟩ := ofLine_by_runs "depſ a b"
    have htokens : ["depſ", "a", "b"] = tokens :=
      (hruns _).mp (Text.maximalRuns_iff.mpr (by decide +kernel))
    exact (hunknown _).mpr ⟨⟨_, htokens.symm⟩, QueryKind.ofName?_eq_none_iff.mp (by decide)⟩
  · obtain ⟨tokens, hruns, -, -, -, harity, -⟩ := ofLine_by_runs "EXISTS\ta\u3000b"
    have htokens : ["EXISTS", "a", "b"] = tokens :=
      (hruns _).mp (Text.maximalRuns_iff.mpr (by decide +kernel))
    exact (harity _ _ _).mpr
      ⟨"EXISTS", ["a", "b"], htokens.symm, Text.sameUpToCase_iff.mp (by decide), by decide, rfl,
        rfl⟩

/-! ## Writing and reading -/

theorem isWord_of_ofLine (h : ofLine line = .ok query) :
    ∀ parameter ∈ query.parameters, Text.IsWord parameter := by
  obtain ⟨first, htokens, -⟩ := (ofLine_eq_ok_iff (Text.maximalRuns_words line)).mp h
  intro parameter hparameter
  apply (Text.maximalRuns_words line).isWord parameter
  rw [htokens]
  exact List.mem_cons_of_mem _ hparameter

/-- A query is read back from its text if its parameters are words, and not if one of them
is none. -/
theorem ofLine_text_eq_ok_iff :
    ofLine query.text = .ok query ↔ ∀ parameter ∈ query.parameters, Text.IsWord parameter := by
  constructor
  · exact isWord_of_ofLine
  · intro hwords
    have hruns : Text.MaximalRuns query.text.toList (query.kind.name :: query.parameters) :=
      Text.maximalRuns_intercalate (List.forall_mem_cons.mpr ⟨query.kind.isWord_name, hwords⟩)
    have hfirst := QueryKind.ofName?_eq_some_iff.mp query.kind.ofName?_name
    exact (ofLine_eq_iff hruns).mpr (.query hfirst)

/-- **Queries on a line.** Writing a query and reading the line gives the query back if and only if
each of its parameters is a word: not empty, and without blank characters. A query that has been
read from a line, whatever the line's spaces and the case of its kind, always comes back. -/
theorem ofLine_text :
    (∀ kind parameters query, ofParameters kind parameters = .ok query →
      (ofLine query.text = .ok query ↔ ∀ parameter ∈ parameters, Text.IsWord parameter)) ∧
    ∀ line query, ofLine line = .ok query → ofLine query.text = .ok query := by
  constructor
  · intro kind parameters query hquery
    obtain ⟨-, rfl⟩ := ofParameters_eq_ok_iff.mp hquery
    exact ofLine_text_eq_ok_iff
  · intro line query hline
    exact ofLine_text_eq_ok_iff.mpr (isWord_of_ofLine hline)

/-- A name with a blank character inside is lost, even where the words are as many as before. -/
theorem ofLine_text_unusual :
    ofLine (Query.allPaths "a\u00A0b" "").text ≠ .ok (.allPaths "a\u00A0b" "") ∧
      ofLine (Query.allPaths "->" "a\u200Bb").text = .ok (.allPaths "->" "a\u200Bb") ∧
      ofLine (Query.member "a").text = .ok (.member "a") := by
  refine ⟨?_, ?_, ?_⟩
  · rw [Ne, ofLine_text.1 .allPaths ["a\u00A0b", ""] _ rfl]
    decide
  · exact (ofLine_text.1 .allPaths ["->", "a\u200Bb"] _ rfl).mpr (by decide)
  · exact ofLine_text.2 "\u2003EXISTS  a" (.member "a") rfl

end Query

end BindingGraph
