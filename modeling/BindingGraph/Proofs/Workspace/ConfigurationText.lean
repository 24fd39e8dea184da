import BindingGraph.Proofs.Yaml.Numeral
import BindingGraph.Proofs.Yaml.WrittenScalar
import BindingGraph.Workspace.Configuration

/-!
# The text of a configuration

The text of a configuration consists of five lines, or more if the place of the graphs takes several
(`toList_text`). It is cut into the tokens of two mappings, one in the other (`ofText_text_tokens`),
and these are read as the configuration that was written (`ofText_text`).
-/

namespace BindingGraph.Configuration

open Yaml Yaml.Scan

variable {lines : List Char} {place : Place} {tokens : List Token} {columns : List Nat}
  {fuel : Nat} {configuration : Configuration}

/-! ## Numbers -/

theorem isWord_toString (n : Nat) : IsWord (toString n).toList := by
  rw [Nat.toString_eq_ofList_toDigits, String.toList_ofList]
  obtain ⟨c, rest, hdigits, hall⟩ := Decimal.exists_toDigits_eq_cons n
  rw [List.forall_mem_cons] at hall
  exact ⟨c, rest, hdigits, by simp [Char.isAlphanum, hall.1],
    fun d hd => isNameChar_of_isDigit (hall.2 d hd)⟩

theorem isWord_numberText (limit : Option Nat) : IsWord (numberText limit).toList := by
  cases limit with
  | none => exact ⟨'n', ['u', 'l', 'l'], rfl, by decide, List.all_eq_true.mp (by decide)⟩
  | some n => exact isWord_toString n

/-! ## The names of fields -/

theorem isWord_graphs : IsWord "graphs".toList :=
  ⟨'g', _, rfl, by decide, List.all_eq_true.mp (by decide)⟩

theorem isWord_engine : IsWord "engine".toList :=
  ⟨'e', _, rfl, by decide, List.all_eq_true.mp (by decide)⟩

theorem isWord_maxEditDistance : IsWord "max-edit-distance".toList :=
  ⟨'m', _, rfl, by decide, List.all_eq_true.mp (by decide)⟩

theorem isWord_maxSuggestions : IsWord "max-suggestions".toList :=
  ⟨'m', _, rfl, by decide, List.all_eq_true.mp (by decide)⟩

theorem isWord_timeout : IsWord "timeout-ms".toList :=
  ⟨'t', _, rfl, by decide, List.all_eq_true.mp (by decide)⟩

/-! ## The lines -/

/-- A line of the inner mapping. -/
def settingLine (name value : String) : List Char :=
  List.replicate 2 ' ' ++ (name.toList ++ ':' :: ' ' :: (value.toList ++ ['\n']))

theorem toList_text (configuration : Configuration) :
    configuration.text.toList =
      "graphs".toList ++ ':' :: ' ' :: ((scalarLine configuration.graphs).toList ++
      ("engine".toList ++ ':' :: '\n' ::
        (settingLine "max-edit-distance" (toString configuration.engine.maxEditDistance) ++
          (settingLine "max-suggestions" (numberText configuration.engine.maxSuggestions) ++
            settingLine "timeout-ms" (numberText configuration.engine.timeoutMillis))))) := by
  obtain ⟨graphs, maxEditDistance, maxSuggestions, timeoutMillis⟩ := configuration
  show ("graphs: " ++ scalarLine graphs ++ "engine:\n" ++
    ("  max-edit-distance: " ++ toString maxEditDistance ++ "\n") ++
    "  max-suggestions: " ++ numberText maxSuggestions ++ "\n" ++
    "  timeout-ms: " ++ numberText timeoutMillis ++ "\n").toList = _
  simp [settingLine, String.toList_append]

/-! ## The tokens -/

/-- A line of the inner mapping, in front of a line that goes no further in. -/
theorem run_settingLine {name value : String} {columns' : List Nat} (hname : IsWord name.toList)
    (hlength : name.toList.length ≤ 256) (hvalue : IsWord value.toList)
    (hopened : opened columns 2 = 2 :: columns') (hcolumns : ∀ indent ∈ columns.head?, indent ≤ 2)
    (hcolumn : place.column = 0) (hnext : NextLine 2 lines) :
    ∃ place', place'.column = 0 ∧
      run (fuel + 3) (atLine tokens columns ⟨settingLine name value ++ lines, place⟩) =
        run fuel (atLine (tokens ++ opening columns 2 ++
          [.key, .scalar name .plain, .value, .scalar value .plain]) (2 :: columns')
            ⟨lines, place'⟩) := by
  have hline : settingLine name value ++ lines =
      List.replicate 2 ' ' ++ (name.toList ++ ':' :: ' ' :: (value.toList ++ '\n' :: lines)) := by
    simp [settingLine]
  obtain ⟨place₁, hbehind, hkey⟩ :=
    @run_key (' ' :: (value.toList ++ '\n' :: lines)) place tokens columns 2
    (fuel + 1) name hname hlength hcolumn hcolumns rfl
  obtain ⟨d, ds, hds, hfirst, hrest⟩ := hvalue
  obtain ⟨place₂, hzero, hscalar⟩ := @run_plain d ds lines place₁
    (tokens ++ opening columns 2 ++ [.key, .scalar name .plain, .value]) columns' 2 fuel value hds
    (isPlain_of_isWord hfirst hrest) hbehind hnext
  rw [hopened, hscalar, List.append_assoc _ _ [Token.scalar value .plain]] at hkey
  rw [hline]
  exact ⟨place₂, hzero, hkey⟩

theorem nextLine_settingLine {name value : String} (hname : IsWord name.toList) :
    NextLine 2 (settingLine name value ++ lines) := by
  rw [settingLine, List.append_assoc, List.append_assoc]
  exact nextLine_of_isWord hname (Nat.le_refl 2)

/-- The tokens of two mappings, one in the other, with the scalars of a configuration. -/
def textTokens (configuration : Configuration) (style : ScalarStyle) : List Token :=
  [.mappingStart, .key, .scalar "graphs" .plain, .value, .scalar configuration.graphs style,
    .key, .scalar "engine" .plain, .value, .mappingStart,
    .key, .scalar "max-edit-distance" .plain, .value,
      .scalar (toString configuration.engine.maxEditDistance) .plain,
    .key, .scalar "max-suggestions" .plain, .value,
      .scalar (numberText configuration.engine.maxSuggestions) .plain,
    .key, .scalar "timeout-ms" .plain, .value,
      .scalar (numberText configuration.engine.timeoutMillis) .plain,
    .blockEnd, .blockEnd]

theorem run_text (configuration : Configuration) (fuel : Nat) :
    ∃ style, run (fuel + 14) (atLine [] [] ⟨configuration.text.toList, {}⟩) =
      .ok (textTokens configuration style) := by
  rw [toList_text]
  let third := settingLine "timeout-ms" (numberText configuration.engine.timeoutMillis)
  let second :=
    settingLine "max-suggestions" (numberText configuration.engine.maxSuggestions) ++ third
  let first :=
    settingLine "max-edit-distance" (toString configuration.engine.maxEditDistance) ++ second
  -- The outer mapping.
  have hnext : NextLine 0 (List.replicate 0 ' ' ++ ("engine".toList ++ ':' :: '\n' :: first)) :=
    nextLine_of_isWord isWord_engine (Nat.le_refl 0)
  obtain ⟨place₁, hplace₁, hrun₁⟩ := @run_key
    (' ' :: ((scalarLine configuration.graphs).toList ++
      ("engine".toList ++ ':' :: '\n' :: first)))
    {} [] [] 0 (fuel + 12) "graphs" isWord_graphs (by decide) rfl nofun rfl
  obtain ⟨style, place₂, hplace₂, hrun₂⟩ := @run_scalarLine
    ("engine".toList ++ ':' :: '\n' :: first) place₁
    [.mappingStart, .key, .scalar "graphs" .plain, .value]
    (fuel + 11) configuration.graphs hplace₁ hnext
  obtain ⟨place₃, -, hrun₃⟩ := @run_key ('\n' :: first) place₂
    [.mappingStart, .key, .scalar "graphs" .plain, .value, .scalar configuration.graphs style]
    [0] 0 (fuel + 9) "engine" isWord_engine (by decide) hplace₂ (by decide) rfl
  -- The inner mapping.
  obtain ⟨place₄, hplace₄, hrun₄⟩ := @run_settingLine second (place₃.next '\n')
    [.mappingStart, .key, .scalar "graphs" .plain, .value, .scalar configuration.graphs style,
      .key, .scalar "engine" .plain, .value]
    [0] (fuel + 6) "max-edit-distance" _ [0] isWord_maxEditDistance (by decide)
    (isWord_toString configuration.engine.maxEditDistance) rfl (by decide) rfl
    (nextLine_settingLine isWord_maxSuggestions)
  obtain ⟨place₅, hplace₅, hrun₅⟩ := @run_settingLine third place₄ _
    [2, 0] (fuel + 3) "max-suggestions" _ [0] isWord_maxSuggestions (by decide)
    (isWord_numberText configuration.engine.maxSuggestions) rfl (by decide)
    hplace₄ (List.append_nil third ▸ nextLine_settingLine isWord_timeout)
  obtain ⟨place₆, -, hrun₆⟩ := @run_settingLine [] place₅ _
    [2, 0] fuel "timeout-ms" _ [0] isWord_timeout (by decide)
    (isWord_numberText configuration.engine.timeoutMillis) rfl (by decide) hplace₅
    (nextLine_nil 2)
  rw [List.append_nil, run_end] at hrun₆
  refine ⟨style, ?_⟩
  calc run (fuel + 14) _ = _ := hrun₁
    _ = _ := hrun₂
    _ = _ := hrun₃
    _ = _ := run_lineEnd
    _ = _ := hrun₄
    _ = _ := hrun₅
    _ = _ := hrun₆
    _ = _ := rfl

/-! ## The characters -/

theorem isWritable_of_mem_settingLine {name value : String} (hname : IsWord name.toList)
    (hvalue : IsWord value.toList) : ∀ c ∈ settingLine name value, isWritable c = true := by
  simp only [settingLine, List.forall_mem_append, List.forall_mem_cons]
  exact ⟨List.all_eq_true.mp (by decide), hname.isWritable_of_mem, by decide, by decide,
    hvalue.isWritable_of_mem, by decide, List.forall_mem_nil _⟩

theorem isWritable_of_mem_text (configuration : Configuration) :
    ∀ c ∈ configuration.text.toList, isWritable c = true := by
  rw [toList_text]
  simp only [List.forall_mem_append, List.forall_mem_cons]
  exact ⟨isWord_graphs.isWritable_of_mem, by decide, by decide,
    isWritable_of_mem_scalarLine configuration.graphs, isWord_engine.isWritable_of_mem, by decide,
    by decide, isWritable_of_mem_settingLine isWord_maxEditDistance (isWord_toString _),
    isWritable_of_mem_settingLine isWord_maxSuggestions (isWord_numberText _),
    isWritable_of_mem_settingLine isWord_timeout (isWord_numberText _)⟩

theorem ofText_text_tokens (configuration : Configuration) :
    ∃ style, Token.ofText configuration.text = .ok (textTokens configuration style) := by
  have hwritable := isWritable_of_mem_text configuration
  have hallowed : configuration.text.toList.all isAllowed = true :=
    List.all_eq_true.mpr fun c hc => isAllowed_of_isWritable (hwritable c hc)
  have hlength : 14 ≤ configuration.text.toList.length := by
    rw [toList_text]
    simp [settingLine]
    omega
  obtain ⟨fuel, hfuel⟩ := Nat.exists_eq_add_of_le' hlength
  obtain ⟨style, hrun⟩ := run_text configuration fuel
  refine ⟨style, ?_⟩
  simp only [Token.ofText, hallowed, if_true, unifyBreaks_eq_self hwritable, hfuel]
  exact hrun

/-! ## The configuration -/

/-- The document of two mappings, one in the other. -/
def textDocument (configuration : Configuration) (style : ScalarStyle) : Document :=
  { root := some (.mapping
      [(.scalar "graphs" .plain none, .scalar configuration.graphs style none),
        (.scalar "engine" .plain none, .mapping
          [(.scalar "max-edit-distance" .plain none,
              .scalar (toString configuration.engine.maxEditDistance) .plain none),
            (.scalar "max-suggestions" .plain none,
              .scalar (numberText configuration.engine.maxSuggestions) .plain none),
            (.scalar "timeout-ms" .plain none,
              .scalar (numberText configuration.engine.timeoutMillis) .plain none)])]) }

theorem ofTokens_textTokens (configuration : Configuration) (style : ScalarStyle) :
    Document.ofTokens (textTokens configuration style) = .ok (textDocument configuration style) :=
  rfl

/-- The numbers are such as sixty-four bits can hold. -/
structure FitsWords (configuration : Configuration) : Prop where
  maxEditDistance : configuration.engine.maxEditDistance ≤ Decimal.maxWord
  maxSuggestions : ∀ n ∈ configuration.engine.maxSuggestions, n ≤ Decimal.maxWord
  timeoutMillis : ∀ n ∈ configuration.engine.timeoutMillis, n ≤ Decimal.maxWord

theorem number_toString (document : Document) {n : Nat} (h : n ≤ Decimal.maxWord) :
    document.number (.scalar (toString n) .plain none) = .ok n := by
  simp only [Document.number, Document.resolve, true_or, if_true, natural?_toString h]

theorem number?_numberText (document : Document) {limit : Option Nat}
    (h : ∀ n ∈ limit, n ≤ Decimal.maxWord) :
    document.number? (.scalar (numberText limit) .plain none) = .ok limit := by
  cases limit with
  | none => rfl
  | some n =>
    simp only [Document.number?, Document.resolve, numberText, if_neg (not_isNull_toString n),
      number_toString document (h n rfl)]
    rfl

theorem ofNode_settings (document : Document) (h : configuration.FitsWords) :
    Settings.ofNode document (.mapping
      [(.scalar "max-edit-distance" .plain none,
          .scalar (toString configuration.engine.maxEditDistance) .plain none),
        (.scalar "max-suggestions" .plain none,
          .scalar (numberText configuration.engine.maxSuggestions) .plain none),
        (.scalar "timeout-ms" .plain none,
          .scalar (numberText configuration.engine.timeoutMillis) .plain none)]) =
            .ok configuration.engine := by
  show (do
    return Settings.ofDraft
      { maxEditDistance :=
          ← (some (Node.scalar (toString configuration.engine.maxEditDistance) .plain none)).mapM
            document.number
        maxSuggestions :=
          ← (some (Node.scalar (numberText configuration.engine.maxSuggestions) .plain none)).mapM
            document.number?
        timeoutMillis :=
          ← (some (Node.scalar (numberText configuration.engine.timeoutMillis) .plain none)).mapM
            document.number? }) = _
  simp only [Option.mapM_some, number_toString document h.maxEditDistance,
    number?_numberText document h.maxSuggestions, number?_numberText document h.timeoutMillis]
  rfl

/-- The text of a configuration is read as the configuration. -/
theorem ofText_text (h : configuration.FitsWords) :
    ofText configuration.text = .ok configuration := by
  obtain ⟨style, htokens⟩ := ofText_text_tokens configuration
  have hdocument : Document.ofText configuration.text = .ok (textDocument configuration style) :=
    bind_eq_ok_iff.mpr ⟨_, htokens, ofTokens_textTokens configuration style⟩
  refine bind_eq_ok_iff.mpr ⟨_, hdocument, ?_⟩
  show (do
    let engine ← (some _).mapM (Settings.ofNode (textDocument configuration style))
    return (⟨configuration.graphs, engine.getD {}⟩ : Configuration)) = _
  simp only [Option.mapM_some, ofNode_settings _ h]
  rfl

/-- So is the text of the default configuration. -/
theorem ofText_text_default : ofText ({} : Configuration).text = .ok {} :=
  ofText_text ⟨by decide, nofun, nofun⟩

end BindingGraph.Configuration
