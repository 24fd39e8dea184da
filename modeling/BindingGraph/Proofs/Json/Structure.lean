import BindingGraph.Proofs.Json.Literal

/-!
# Lists and objects without space

What the readers of lists and of objects make of text that has been written without any space. A
list of strings is read back whole (`yields_list`). An object is read field by field:
`yields_members_field` is one field, `yields_members_end` the closing brace. The supply of steps
that bounds both readers is counted from the text, and each step passes over some of it, so it does
not run out.
-/

namespace BindingGraph.Json.Reader

theorem yields_colon (cs : List Char) : Yields colon (':' :: cs) cs () :=
  (yields_peekToken? (by decide) cs).bind (yields_skip ':' cs)

/-! ## Lists of strings -/

/-- The items of a list as they are written, after a comma unless they are the first. -/
def itemsChars : Bool → List String → List Char
  | _, [] => []
  | true, item :: items => quoteChars item ++ itemsChars false items
  | false, item :: items => ',' :: (quoteChars item ++ itemsChars false items)

theorem yields_hasItem_end (first : Bool) (rest : List Char) :
    Yields (hasItem first) (']' :: rest) (']' :: rest) false :=
  (yields_peekToken? (by decide) rest).bind (Yields.pure false _)

theorem yields_hasItem_first (text : String) (rest : List Char) :
    Yields (hasItem true) (quoteChars text ++ rest) (quoteChars text ++ rest) true := by
  rw [quoteChars_append]
  exact (yields_peekToken? (by decide) _).bind (Yields.pure true _)

theorem yields_hasItem_next (text : String) (rest : List Char) :
    Yields (hasItem false) (',' :: (quoteChars text ++ rest)) (quoteChars text ++ rest) true := by
  refine (yields_peekToken? (by decide) _).bind ((yields_skip ',' _).bind ?_)
  rw [quoteChars_append]
  exact (yields_peekToken? (by decide) _).bind (Yields.pure true _)

/-- The items of a list, up to its closing bracket. -/
theorem yields_items (expected : String) (names : List String) (rest : List Char) :
    ∀ (count : Nat) (first : Bool), names.length < count →
      Yields (items (string expected) count first) (itemsChars first names ++ ']' :: rest)
        (']' :: rest) names := by
  induction names with
  | nil =>
    intro count first hcount
    obtain ⟨count, rfl⟩ := Nat.exists_eq_add_one.mpr hcount
    cases first
    all_goals exact (yields_hasItem_end _ rest).bind (Yields.pure [] _)
  | cons name names ih =>
    intro count first hcount
    obtain ⟨count, rfl⟩ := Nat.exists_eq_add_one.mpr (Nat.zero_lt_of_lt hcount)
    have hitem : Yields
        (do
          let head ← string expected
          let tail ← items (string expected) count false
          return head :: tail)
        (quoteChars name ++ (itemsChars false names ++ ']' :: rest)) (']' :: rest)
        (name :: names) := by
      refine (yields_string expected name _).bind ?_
      exact (ih count false (by simpa using hcount)).bind (Yields.pure _ _)
    cases first with
    | true =>
      show Yields _ ((quoteChars name ++ itemsChars false names) ++ ']' :: rest) _ _
      rw [List.append_assoc]
      exact (yields_hasItem_first name _).bind hitem
    | false =>
      show Yields _ (',' :: ((quoteChars name ++ itemsChars false names) ++ ']' :: rest)) _ _
      rw [List.append_assoc]
      exact (yields_hasItem_next name _).bind hitem

theorem length_le_itemsChars (first : Bool) (names : List String) :
    names.length ≤ (itemsChars first names).length := by
  induction names generalizing first with
  | nil => exact Nat.zero_le _
  | cons name names ih =>
    have := ih false
    cases first <;> simp only [itemsChars, quoteChars, List.length_cons, List.length_append] <;>
      omega

theorem yields_listEnd (rest : List Char) : Yields listEnd (']' :: rest) rest () :=
  (yields_peekToken? (by decide) rest).bind (yields_skip ']' rest)

/-- A list of strings, with its brackets. -/
def listChars (names : List String) : List Char := '[' :: itemsChars true names ++ [']']

theorem yields_list (expected : String) (names : List String) (rest : List Char) :
    Yields (list (string expected)) (listChars names ++ rest) rest names := by
  have hchars : listChars names ++ rest = '[' :: (itemsChars true names ++ ']' :: rest) := by
    simp [listChars]
  rw [hchars]
  refine (yields_valueToken (by decide) _).bind ((yields_skip '[' _).bind ?_)
  refine Yields.get_bind fun offset => ?_
  have hlength : names.length < (itemsChars true names ++ ']' :: rest).length + 1 := by
    have := length_le_itemsChars true names
    rw [List.length_append]
    omega
  refine (yields_items expected names rest _ true hlength).bind ?_
  exact (yields_listEnd rest).bind (Yields.pure names rest)

/-! ## Objects -/

theorem yields_key?_end (first : Bool) (rest : List Char) :
    Yields (key? first) ('}' :: rest) ('}' :: rest) none :=
  (yields_peekToken? (by decide) rest).bind (Yields.pure none _)

theorem yields_key?_first (name : String) (rest : List Char) :
    Yields (key? true) (quoteChars name ++ rest) rest (some name) := by
  rw [quoteChars_append]
  refine (yields_peekToken? (by decide) _).bind ((yields_skip '"' _).bind ?_)
  exact (yields_literal name rest).map some

theorem yields_key?_next (name : String) (rest : List Char) :
    Yields (key? false) (',' :: (quoteChars name ++ rest)) rest (some name) := by
  refine (yields_peekToken? (by decide) _).bind ((yields_skip ',' _).bind ?_)
  rw [quoteChars_append]
  refine (yields_peekToken? (by decide) _).bind ((yields_skip '"' _).bind ?_)
  exact (yields_literal name rest).map some

variable {Draft : Type} {fields : List (Field Draft)}

theorem yields_members_end (count : Nat) (first : Bool) (draft : Draft) (rest : List Char) :
    Yields (members fields (count + 1) first draft) ('}' :: rest) ('}' :: rest) draft :=
  (yields_key?_end first rest).bind (Yields.pure draft _)

/-- One field of an object, and what follows it. -/
theorem yields_members_field {count : Nat} {first : Bool} {draft draft' result : Draft}
    {name : String} {field : Field Draft} {before value middle after : List Char}
    (hkey : Yields (key? first) before (':' :: value) (some name))
    (hfield : fields.find? (·.name == name) = some field) (hset : field.isSet draft = false)
    (hvalue : Yields (field.read draft) value middle draft')
    (hrest : Yields (members fields count false draft') middle after result) :
    Yields (members fields (count + 1) first draft) before after result := by
  refine hkey.bind ?_
  dsimp only
  rw [hfield]
  dsimp only
  rw [if_neg (by rw [hset]; exact Bool.false_ne_true)]
  exact (yields_colon value).bind (hvalue.bind hrest)

theorem yields_objectEnd (rest : List Char) : Yields objectEnd ('}' :: rest) rest () :=
  (yields_peekToken? (by decide) rest).bind (yields_skip '}' rest)

/-- A structure that stands as an object. -/
theorem yields_fielded {α : Type} {expected : String} {draft result : Draft} {value : α}
    {ofObject ofList : Draft → Except Fault α} {before rest : List Char}
    (hmembers : Yields (members fields (before.length + 1) true draft) before ('}' :: rest) result)
    (hresult : ofObject result = .ok value) :
    Yields (fielded expected fields draft ofObject ofList) ('{' :: before) rest value := by
  refine (yields_valueToken (by decide) _).bind ((yields_skip '{' _).bind ?_)
  refine Yields.get_bind fun offset => hmembers.bind ?_
  rw [hresult]
  exact (yields_objectEnd rest).bind (Yields.pure value rest)

/-- A whole text that a reader passes over is read as its value. -/
theorem readAll_of_yields {α : Type} {reader : Reader α} {text : String} {value : α}
    (h : Yields reader text.toList [] value) : readAll reader text = .ok value := by
  have hpeek : Yields peekToken? [] [] none := (yields_skipSpace (by simp)).bind (yields_peek? [])
  have hfinish : Yields finish [] [] () := hpeek.bind (Yields.pure () [])
  have hwhole : Yields (do let value ← reader; finish; return value) text.toList [] value :=
    h.bind (hfinish.bind (Yields.pure value []))
  obtain ⟨offset, hrun⟩ := hwhole 0
  show Except.map Prod.fst ((do let value ← reader; finish; return value : Reader α) _) = _
  rw [hrun]
  rfl

end BindingGraph.Json.Reader
