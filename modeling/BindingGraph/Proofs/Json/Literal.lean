import BindingGraph.Json.Document
import BindingGraph.Json.Expect

/-!
# Literals that have been written

A text is read back from its string literal (`yields_literal`), whatever characters it holds: those
that would end or break a literal are escaped, and each escape denotes the character that it stands
for (`escapeChar_cases`). `Yields` says what a reader does with a text wherever that text begins, so
that statements about readers in a row are put together by `Yields.bind`.
-/

namespace BindingGraph.Json.Reader

variable {α β : Type}

/-- From the text `before` the reader gives a value and leaves the text `after`, at any offset. -/
def Yields (reader : Reader α) (before after : List Char) (value : α) : Prop :=
  ∀ offset, ∃ offset', reader ⟨before, offset⟩ = .ok (value, ⟨after, offset'⟩)

theorem Yields.pure (value : α) (cs : List Char) : Yields (pure value) cs cs value :=
  fun offset => ⟨offset, rfl⟩

theorem Yields.bind {reader : Reader α} {next : α → Reader β} {before middle after : List Char}
    {value : α} {result : β} (h : Yields reader before middle value)
    (hnext : Yields (next value) middle after result) :
    Yields (reader >>= next) before after result := by
  intro offset
  obtain ⟨offset₁, h₁⟩ := h offset
  obtain ⟨offset₂, h₂⟩ := hnext offset₁
  refine ⟨offset₂, ?_⟩
  show Except.bind (reader ⟨before, offset⟩) (fun found => next found.1 found.2) = _
  rw [h₁]
  exact h₂

theorem Yields.map {reader : Reader α} {before after : List Char} {value : α} (f : α → β)
    (h : Yields reader before after value) : Yields (f <$> reader) before after (f value) := by
  intro offset
  obtain ⟨offset', h'⟩ := h offset
  refine ⟨offset', ?_⟩
  show Except.bind (reader ⟨before, offset⟩) (fun found => .ok (f found.1, found.2)) = _
  rw [h']
  rfl

/-- A reader that looks at how much is left. -/
theorem Yields.get_bind {next : Cursor → Reader β} {before after : List Char} {result : β}
    (h : ∀ offset, Yields (next ⟨before, offset⟩) before after result) :
    Yields (get >>= next) before after result := fun offset => h offset offset

/-! ## Single characters -/

theorem yields_peek? (cs : List Char) : Yields peek? cs cs cs.head? := fun offset => ⟨offset, rfl⟩

theorem yields_skip (c : Char) (cs : List Char) : Yields skip (c :: cs) cs () :=
  fun offset => ⟨offset + c.utf8Size, rfl⟩

theorem yields_skipSpace {cs : List Char} (h : ∀ c ∈ cs.head?, isSpace c = false) :
    Yields skipSpace cs cs () := by
  intro offset
  have htake : cs.takeWhile isSpace = [] ∧ cs.dropWhile isSpace = cs := by
    cases cs with
    | nil => exact ⟨rfl, rfl⟩
    | cons c cs =>
      have hc : ¬ isSpace c = true := by rw [h c rfl]; exact Bool.false_ne_true
      exact ⟨List.takeWhile_cons_of_neg hc, List.dropWhile_cons_of_neg hc⟩
  refine ⟨offset, ?_⟩
  show Except.ok ((), Cursor.mk (cs.dropWhile isSpace) (offset + (cs.takeWhile isSpace).length)) = _
  rw [htake.1, htake.2]
  rfl

theorem yields_peekToken? {c : Char} (h : isSpace c = false) (cs : List Char) :
    Yields peekToken? (c :: cs) (c :: cs) (some c) :=
  (yields_skipSpace (by simpa using h)).bind (yields_peek? _)

theorem yields_valueToken {c : Char} (h : isSpace c = false) (cs : List Char) :
    Yields valueToken (c :: cs) (c :: cs) c :=
  (yields_peekToken? h cs).bind (Yields.pure c _)

/-! ## Escapes -/

/-- The four digits of a control character's escape. -/
theorem digits?_control : ∀ n < 32,
    Decimal.digits? 16 ['0', '0', hexDigit (n / 16), hexDigit (n % 16)] = some n := by
  decide

theorem byteLength_control : ∀ n < 32,
    byteLength ['0', '0', hexDigit (n / 16), hexDigit (n % 16)] = 4 := by
  decide

theorem hexEscape_control {n : Nat} (h : n < 32) (rest : List Char) (offset : Nat) :
    hexEscape ⟨['0', '0', hexDigit (n / 16), hexDigit (n % 16)] ++ rest, offset⟩ =
      .ok (n, ⟨rest, offset + 4⟩) := by
  have htake : (['0', '0', hexDigit (n / 16), hexDigit (n % 16)] ++ rest).take 4 =
      ['0', '0', hexDigit (n / 16), hexDigit (n % 16)] := rfl
  simp only [hexEscape, htake, byteLength_control n h, digits?_control n h, Nat.lt_irrefl, if_false,
    beq_self_eq_true, Option.filter_some, if_true]
  rfl

/-- A character that is written as it is. -/
def IsPlain (c : Char) : Prop := c ≠ '"' ∧ c ≠ '\\' ∧ ¬ c.toNat < 0x20

theorem hexDigit_visible : ∀ n < 16, ¬ (hexDigit n).toNat < 0x20 := by
  decide

/-- The escape of one letter behind the backslash. -/
theorem exists_escape_letter {c letter : Char} (hvisible : ¬ letter.toNat < 0x20)
    (hescape : ∀ rest offset, ∃ offset', escape ⟨letter :: rest, offset⟩ =
      .ok (c, ⟨rest, offset'⟩)) :
    ∃ code, ['\\', letter] = '\\' :: code ∧ (∀ d ∈ code, ¬ d.toNat < 0x20) ∧
      ∀ rest offset, ∃ offset', escape ⟨code ++ rest, offset⟩ = .ok (c, ⟨rest, offset'⟩) := by
  refine ⟨[letter], rfl, ?_, hescape⟩
  intro d hd
  rw [List.mem_singleton.mp hd]
  exact hvisible

/-- Every character is either written as it is, or by an escape that denotes it and that holds no
control character itself. -/
theorem escapeChar_cases (c : Char) :
    (IsPlain c ∧ escapeChar c = [c]) ∨
      ∃ code, escapeChar c = '\\' :: code ∧ (∀ d ∈ code, ¬ d.toNat < 0x20) ∧
        ∀ rest offset, ∃ offset', escape ⟨code ++ rest, offset⟩ = .ok (c, ⟨rest, offset'⟩) := by
  unfold escapeChar
  split
  · rename_i h; subst h
    exact .inr (exists_escape_letter (by decide) fun rest offset => ⟨_, rfl⟩)
  rename_i hquote
  split
  · rename_i h; subst h
    exact .inr (exists_escape_letter (by decide) fun rest offset => ⟨_, rfl⟩)
  rename_i hbackslash
  split
  · rename_i h; subst h
    exact .inr (exists_escape_letter (by decide) fun rest offset => ⟨_, rfl⟩)
  split
  · rename_i h; subst h
    exact .inr (exists_escape_letter (by decide) fun rest offset => ⟨_, rfl⟩)
  split
  · rename_i h; subst h
    exact .inr (exists_escape_letter (by decide) fun rest offset => ⟨_, rfl⟩)
  split
  · rename_i h; subst h
    exact .inr (exists_escape_letter (by decide) fun rest offset => ⟨_, rfl⟩)
  split
  · rename_i h; subst h
    exact .inr (exists_escape_letter (by decide) fun rest offset => ⟨_, rfl⟩)
  split
  · rename_i hcontrol
    refine .inr ⟨_, rfl, ?_, fun rest offset => ⟨offset + 1 + 4, ?_⟩⟩
    · intro d hd
      simp only [List.mem_cons, List.not_mem_nil, or_false] at hd
      rcases hd with rfl | rfl | rfl | rfl | rfl
      · decide
      · decide
      · decide
      · exact hexDigit_visible _ (by omega)
      · exact hexDigit_visible _ (by omega)
    · -- A control character is no half of a surrogate pair.
      have hlow : ¬ (0xDC00 ≤ c.toNat ∧ c.toNat ≤ 0xDFFF) := by omega
      have hhigh : ¬ (0xD800 ≤ c.toNat ∧ c.toNat ≤ 0xDBFF) := by omega
      show Except.bind (hexEscape ⟨['0', '0', hexDigit (c.toNat / 16), hexDigit (c.toNat % 16)] ++
        rest, offset + 1⟩) _ = _
      rw [hexEscape_control hcontrol]
      show (if 0xDC00 ≤ c.toNat ∧ c.toNat ≤ 0xDFFF then _
        else if 0xD800 ≤ c.toNat ∧ c.toNat ≤ 0xDBFF then _ else _) = _
      rw [if_neg hlow, if_neg hhigh, Char.ofNat_toNat]
  · rename_i hcontrol
    exact .inl ⟨⟨hquote, hbackslash, hcontrol⟩, rfl⟩

/-! ## Whole literals -/

theorem literalFrom_quote (read rest : List Char) (offset : Nat) :
    literalFrom read ⟨'"' :: rest, offset⟩ = .ok (read.reverse, ⟨rest, offset + 1⟩) := by
  rw [literalFrom]
  rfl

theorem literalFrom_plain {c : Char} (h : IsPlain c) (read rest : List Char) (offset : Nat) :
    literalFrom read ⟨c :: rest, offset⟩ =
      literalFrom (c :: read) ⟨rest, offset + c.utf8Size⟩ := by
  rw [literalFrom]
  show (if c = '"' then _ else if c = '\\' then _ else if c.toNat < 0x20 then _ else _) = _
  rw [if_neg h.1, if_neg h.2.1, if_neg h.2.2]

theorem literalFrom_escape {c : Char} {code : List Char} {after : Cursor} {offset : Nat}
    (h : escape ⟨code, offset + 1⟩ = .ok (c, after)) (read : List Char) :
    literalFrom read ⟨'\\' :: code, offset⟩ = literalFrom (c :: read) after := by
  rw [literalFrom]
  show (if '\\' = '"' then _ else if '\\' = '\\' then _ else _) = _
  rw [if_neg (by decide), if_pos rfl]
  split
  · rename_i heq
    rw [h] at heq
    cases heq
  · rename_i heq
    rw [h] at heq
    cases heq
    rfl

theorem literalFrom_flatMap_escapeChar (cs read rest : List Char) (offset : Nat) :
    ∃ offset', literalFrom read ⟨cs.flatMap escapeChar ++ '"' :: rest, offset⟩ =
      .ok (read.reverse ++ cs, ⟨rest, offset'⟩) := by
  induction cs generalizing read offset with
  | nil =>
    refine ⟨offset + 1, ?_⟩
    rw [List.append_nil]
    exact literalFrom_quote read rest offset
  | cons c cs ih =>
    have hread : read.reverse ++ c :: cs = (c :: read).reverse ++ cs := by simp
    rw [List.flatMap_cons, List.append_assoc, hread]
    rcases escapeChar_cases c with ⟨hplain, hc⟩ | ⟨code, hc, -, hescape⟩
    · rw [hc, List.singleton_append, literalFrom_plain hplain]
      exact ih (c :: read) _
    · obtain ⟨offset₁, h₁⟩ := hescape (cs.flatMap escapeChar ++ '"' :: rest) (offset + 1)
      rw [hc, List.cons_append, literalFrom_escape h₁]
      exact ih (c :: read) offset₁

/-- A literal as it is written, with its quotes. -/
def quoteChars (text : String) : List Char := '"' :: text.toList.flatMap escapeChar ++ ['"']

theorem quoteChars_append (text : String) (rest : List Char) :
    quoteChars text ++ rest = '"' :: (text.toList.flatMap escapeChar ++ '"' :: rest) := by
  simp [quoteChars]

theorem toList_quote (text : String) : (quote text).toList = quoteChars text :=
  String.toList_ofList

/-- The literal of a text, from after its opening quote, is read as the text. -/
theorem yields_literal (text : String) (rest : List Char) :
    Yields literal (text.toList.flatMap escapeChar ++ '"' :: rest) rest text := by
  intro offset
  obtain ⟨offset', h⟩ := literalFrom_flatMap_escapeChar text.toList [] rest offset
  refine ⟨offset', ?_⟩
  show (literalFrom [] _).map _ = _
  rw [h]
  show Except.ok (String.ofList text.toList, _) = _
  rw [String.ofList_toList]

/-- The literal of a text is read as the text. -/
theorem yields_string (expected text : String) (rest : List Char) :
    Yields (string expected) (quoteChars text ++ rest) rest text := by
  rw [quoteChars_append]
  refine (yields_valueToken (by decide) _).bind ?_
  exact (yields_skip '"' _).bind (yields_literal text rest)

/-- A literal holds no control character, so it stands on one line. -/
theorem visible_of_mem_quoteChars {text : String} {d : Char} (h : d ∈ quoteChars text) :
    ¬ d.toNat < 0x20 := by
  simp only [quoteChars, List.cons_append, List.mem_cons, List.mem_append, List.mem_flatMap,
    List.not_mem_nil, or_false] at h
  rcases h with rfl | ⟨c, -, hmem⟩ | rfl
  · decide
  · rcases escapeChar_cases c with ⟨hplain, hc⟩ | ⟨code, hc, hcode, -⟩
    · rw [hc, List.mem_singleton] at hmem
      rw [hmem]
      exact hplain.2.2
    · rw [hc, List.mem_cons] at hmem
      rcases hmem with rfl | hmem
      · decide
      · exact hcode d hmem
  · decide

end BindingGraph.Json.Reader
