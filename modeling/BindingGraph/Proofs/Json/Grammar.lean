import BindingGraph.Json.Document
import BindingGraph.Proofs.Decimal.Numerals
import BindingGraph.Proofs.Json.Literal
import Mathlib.Data.List.Forall2

/-!
# The grammar of JSON

Which texts are spellings of a document: `Spells` has a rule for each kind of document and allows
blank characters wherever the format does. What is written, one entry to a line, is a spelling
(`spells_pretty`); no text is one that does not start as a document does (`Spells.head?_eq`).
-/

namespace BindingGraph.Json

/-! ## Rules -/

/-- Characters that may stand between tokens. -/
def IsBlank (cs : List Char) : Prop := ∀ c ∈ cs, Reader.isSpace c = true

/-- The escapes of two characters: the one behind the backslash, and the one that they denote. -/
def shortEscapes : List (Char × Char) :=
  [('"', '"'), ('\\', '\\'), ('/', '/'), ('b', '\x08'), ('f', '\x0c'), ('n', '\n'), ('r', '\r'),
    ('t', '\t')]

/-- What stands between the quotes of a string literal denotes characters. -/
inductive Denotes : List Char → List Char → Prop
  | nil : Denotes [] []
  | plain {c : Char} {code cs : List Char} (hquote : c ≠ '"') (hbackslash : c ≠ '\\')
      (hvisible : ¬ c.toNat < 0x20) (hcode : Denotes code cs) : Denotes (c :: code) (c :: cs)
  | short {letter c : Char} {code cs : List Char} (hescape : (letter, c) ∈ shortEscapes)
      (hcode : Denotes code cs) : Denotes ('\\' :: letter :: code) (c :: cs)
  | hex {digits code cs : List Char} {c : Char} (hlength : digits.length = 4)
      (hvalue : Decimal.digits? 16 digits = some c.toNat) (hcode : Denotes code cs) :
      Denotes ('\\' :: 'u' :: (digits ++ code)) (c :: cs)
  | pair {high low code cs : List Char} {first second : Nat} {c : Char} (hhigh : high.length = 4)
      (hlow : low.length = 4) (hfirst : Decimal.digits? 16 high = some (0xD800 + first))
      (hsecond : Decimal.digits? 16 low = some (0xDC00 + second)) (hlt : second < 0x400)
      (hc : c.toNat = 0x10000 + first * 0x400 + second) (hcode : Denotes code cs) :
      Denotes ('\\' :: 'u' :: (high ++ '\\' :: 'u' :: (low ++ code))) (c :: cs)

/-- One or more entries, with a comma between each two and blank characters around each. -/
inductive Separated {α : Type} (Entry : List Char → α → Prop) : List Char → List α → Prop
  | last {before cs after : List Char} {entry : α} (hbefore : IsBlank before)
      (hentry : Entry cs entry) (hafter : IsBlank after) :
      Separated Entry (before ++ cs ++ after) [entry]
  | more {before cs after rest : List Char} {entry : α} {entries : List α}
      (hbefore : IsBlank before) (hentry : Entry cs entry) (hafter : IsBlank after)
      (hrest : Separated Entry rest entries) :
      Separated Entry (before ++ cs ++ after ++ ',' :: rest) (entry :: entries)

mutual

/-- A text is a spelling of a document. -/
inductive Spells : List Char → Document → Prop
  | null : Spells "null".toList .null
  | number (n : Nat) : Spells (Nat.toDigits 10 n) (.number n)
  | string {code : List Char} {text : String} (hcode : Denotes code text.toList) :
      Spells ('"' :: code ++ ['"']) (.string text)
  | noItems {blank : List Char} (hblank : IsBlank blank) :
      Spells ('[' :: blank ++ [']']) (.array [])
  | items {cs : List Char} {items : List Document} (hitems : Separated Spells cs items) :
      Spells ('[' :: cs ++ [']']) (.array items)
  | noFields {blank : List Char} (hblank : IsBlank blank) :
      Spells ('\x7b' :: blank ++ ['\x7d']) (.object [])
  | fields {cs : List Char} {fields : List (String × Document)}
      (hfields : Separated SpellsField cs fields) :
      Spells ('\x7b' :: cs ++ ['\x7d']) (.object fields)

/-- A text is a spelling of a field: its name as a literal, a colon, and its value. -/
inductive SpellsField : List Char → String × Document → Prop
  | field {code before after cs : List Char} {key : String} {value : Document}
      (hkey : Denotes code key.toList) (hbefore : IsBlank before) (hafter : IsBlank after)
      (hvalue : Spells cs value) :
      SpellsField ('"' :: code ++ '"' :: before ++ ':' :: after ++ cs) (key, value)

end

/-! ## What is written is a spelling -/

theorem IsBlank.nil : IsBlank [] := by
  intro c hc
  cases hc

theorem isBlank_newLine (level : Nat) : IsBlank (Document.newLine level).toList := by
  intro c hc
  rw [Document.newLine, String.toList_ofList] at hc
  rcases List.mem_cons.mp hc with rfl | hc
  · decide
  · rw [List.eq_of_mem_replicate hc]
    decide

theorem Denotes.escapeChar {code cs : List Char} (c : Char) (hcode : Denotes code cs) :
    Denotes (Json.escapeChar c ++ code) (c :: cs) := by
  unfold Json.escapeChar
  split
  · rename_i h; subst h
    exact .short (by decide) hcode
  rename_i hquote
  split
  · rename_i h; subst h
    exact .short (by decide) hcode
  rename_i hbackslash
  split
  · rename_i h; subst h
    exact .short (by decide) hcode
  split
  · rename_i h; subst h
    exact .short (by decide) hcode
  split
  · rename_i h; subst h
    exact .short (by decide) hcode
  split
  · rename_i h; subst h
    exact .short (by decide) hcode
  split
  · rename_i h; subst h
    exact .short (by decide) hcode
  split
  · rename_i hcontrol
    exact .hex rfl (Reader.digits?_control _ hcontrol) hcode
  · rename_i hvisible
    exact .plain hquote hbackslash hvisible hcode

theorem denotes_flatMap_escapeChar (cs : List Char) : Denotes (cs.flatMap escapeChar) cs := by
  induction cs with
  | nil => exact .nil
  | cons c cs ih =>
    rw [List.flatMap_cons]
    exact ih.escapeChar c

/-- Entries that are put together with commas and line breaks are separated. -/
theorem separated_intercalate {α : Type} {Entry : List Char → α → Prop} {texts : List String}
    {entries : List α} (h : List.Forall₂ (fun text entry => Entry text.toList entry) texts entries)
    (hne : entries ≠ []) {before after : String} (hbefore : IsBlank before.toList)
    (hafter : IsBlank after.toList) :
    Separated Entry (before ++ ("," ++ before).intercalate texts ++ after).toList entries := by
  induction h with
  | nil => exact absurd rfl hne
  | @cons text entry texts entries hentry hrest ih =>
    cases hrest with
    | nil =>
      rw [String.intercalate_singleton, String.toList_append, String.toList_append]
      exact .last hbefore hentry hafter
    | @cons text' entry' texts entries hentry' hrest =>
      have hmore := Separated.more hbefore hentry .nil (ih (List.cons_ne_nil _ _))
      rw [String.intercalate_cons_cons]
      simpa using hmore

theorem spells_array {level : Nat} {texts : List String} {items : List Document}
    (h : List.Forall₂ (fun text item => Spells text.toList item) texts items) :
    Spells (Document.bracket level "[" "]" texts).toList (.array items) := by
  cases h with
  | nil => simpa [Document.bracket] using Spells.noItems .nil
  | @cons text item texts items hitem hitems =>
    have hseparated := separated_intercalate (.cons hitem hitems) (List.cons_ne_nil _ _)
      (isBlank_newLine (level + 1)) (isBlank_newLine level)
    have hbracket := Spells.items hseparated
    simpa [Document.bracket, String.append_assoc] using hbracket

theorem spells_object {level : Nat} {texts : List String} {fields : List (String × Document)}
    (h : List.Forall₂ (fun text field => SpellsField text.toList field) texts fields) :
    Spells (Document.bracket level "\x7b" "\x7d" texts).toList (.object fields) := by
  cases h with
  | nil => simpa [Document.bracket] using Spells.noFields .nil
  | @cons text field texts fields hfield hfields =>
    have hseparated := separated_intercalate (.cons hfield hfields) (List.cons_ne_nil _ _)
      (isBlank_newLine (level + 1)) (isBlank_newLine level)
    have hbracket := Spells.fields hseparated
    simpa [Document.bracket, String.append_assoc] using hbracket

theorem spells_quote (text : String) : Spells (quote text).toList (.string text) := by
  rw [quote, String.toList_ofList]
  exact .string (denotes_flatMap_escapeChar text.toList)

theorem spellsField_quote {key text : String} {value : Document} (h : Spells text.toList value) :
    SpellsField (quote key ++ ": " ++ text).toList (key, value) := by
  have hblank : IsBlank [' '] := by
    intro c hc
    rw [List.mem_singleton.mp hc]
    rfl
  have hfield := SpellsField.field (denotes_flatMap_escapeChar key.toList) .nil hblank h
  simpa [quote] using hfield

mutual

/-- The document as it stands at a level is a spelling of it. -/
theorem spells_prettyAt (level : Nat) :
    (document : Document) → Spells (document.prettyAt level).toList document
  | .null => .null
  | .number n => by
    rw [Document.prettyAt, Nat.toString_eq_repr, Nat.repr, String.toList_ofList]
    exact .number n
  | .string text => spells_quote text
  | .array items => spells_array (spells_prettyItems (level + 1) items)
  | .object fields => spells_object (spells_prettyFields (level + 1) fields)

theorem spells_prettyItems (level : Nat) :
    (items : List Document) →
      List.Forall₂ (fun text item => Spells text.toList item)
        (Document.prettyItems level items) items
  | [] => .nil
  | item :: items => .cons (spells_prettyAt level item) (spells_prettyItems level items)

theorem spells_prettyFields (level : Nat) :
    (fields : List (String × Document)) →
      List.Forall₂ (fun text field => SpellsField text.toList field)
        (Document.prettyFields level fields) fields
  | [] => .nil
  | (_, value) :: fields =>
    .cons (spellsField_quote (spells_prettyAt level value)) (spells_prettyFields level fields)

end

/-- What is written, one entry to a line, is a spelling of the document. -/
theorem spells_pretty (document : Document) : Spells document.pretty.toList document :=
  spells_prettyAt 0 document

/-! ## How a document starts -/

/-- A spelling starts as a document of its kind does. -/
theorem Spells.head?_mem {cs : List Char} {document : Document} (h : Spells cs document) :
    ∃ c, cs.head? = some c ∧ (c ∈ ['n', '"', '[', '\x7b'] ∨ c.isDigit) := by
  cases h with
  | null => exact ⟨'n', rfl, .inl (by decide)⟩
  | number n =>
    obtain ⟨c, cs, hdigits, hall⟩ := Decimal.exists_toDigits_eq_cons n
    exact ⟨c, by rw [hdigits]; rfl, .inr (hall c List.mem_cons_self)⟩
  | string hcode => exact ⟨'"', rfl, .inl (by decide)⟩
  | noItems hblank => exact ⟨'[', rfl, .inl (by decide)⟩
  | items hitems => exact ⟨'[', rfl, .inl (by decide)⟩
  | noFields hblank => exact ⟨'\x7b', rfl, .inl (by decide)⟩
  | fields hfields => exact ⟨'\x7b', rfl, .inl (by decide)⟩

end BindingGraph.Json
