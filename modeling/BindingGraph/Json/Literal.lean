import BindingGraph.Decimal.Natural
import BindingGraph.Json.Cursor

/-!
# String literals

What stands between the quotes of a string literal. `literal` reads the characters it denotes;
`skipLiteral` passes over it and accepts any four hexadecimal digits after `\u`, also those of half
a surrogate pair.
-/

namespace BindingGraph.Json

/-- How many bytes the characters take. -/
def byteLength : List Char → Nat
  | [] => 0
  | c :: cs => c.utf8Size + byteLength cs

/-- The four hexadecimal digits of an escape. They are looked for in the next four bytes. -/
def hexEscape (cursor : Cursor) : Except Failure (Nat × Cursor) :=
  let four := cursor.rest.take 4
  if byteLength four < 4 then .error ⟨.stringEnds, cursor.offset + byteLength four⟩
  else
    match (Decimal.digits? 16 four).filter fun _ => byteLength four == 4 with
    | some value => .ok (value, ⟨cursor.rest.drop 4, cursor.offset + 4⟩)
    | none => .error ⟨.badEscape, cursor.offset + 4⟩

theorem length_of_hexEscape {cursor after : Cursor} {value : Nat}
    (h : hexEscape cursor = .ok (value, after)) : after.rest.length ≤ cursor.rest.length := by
  unfold hexEscape at h
  dsimp only at h
  split at h
  · cases h
  · split at h
    · cases h
      simp
    · cases h

/-- The second half of a surrogate pair whose first half is `high`. -/
def lowSurrogate (high : Nat) (cursor : Cursor) : Except Failure (Char × Cursor) :=
  match cursor.rest with
  | [] => .error ⟨.stringEnds, cursor.offset⟩
  | ['\\'] => .error ⟨.stringEnds, cursor.offset + 1⟩
  | '\\' :: 'u' :: rest => do
    let (low, after) ← hexEscape ⟨rest, cursor.offset + 2⟩
    if 0xDC00 ≤ low ∧ low ≤ 0xDFFF then
      .ok (Char.ofNat (0x10000 + (high - 0xD800) * 0x400 + (low - 0xDC00)), after)
    else .error ⟨.loneSurrogate, after.offset⟩
  | '\\' :: _ => .error ⟨.hexEscapeEnds, cursor.offset + 2⟩
  | _ => .error ⟨.hexEscapeEnds, cursor.offset + 1⟩

/-- The character that an escape denotes, from after its backslash. -/
def escape (cursor : Cursor) : Except Failure (Char × Cursor) :=
  match cursor.rest with
  | [] => .error ⟨.stringEnds, cursor.offset⟩
  | c :: rest =>
    let after : Cursor := ⟨rest, cursor.offset + 1⟩
    match c with
    | '"' => .ok ('"', after)
    | '\\' => .ok ('\\', after)
    | '/' => .ok ('/', after)
    | 'b' => .ok ('\x08', after)
    | 'f' => .ok ('\x0c', after)
    | 'n' => .ok ('\n', after)
    | 'r' => .ok ('\r', after)
    | 't' => .ok ('\t', after)
    | 'u' => do
      let (value, after) ← hexEscape after
      if 0xDC00 ≤ value ∧ value ≤ 0xDFFF then .error ⟨.loneSurrogate, after.offset⟩
      else if 0xD800 ≤ value ∧ value ≤ 0xDBFF then lowSurrogate value after
      else .ok (Char.ofNat value, after)
    | _ => .error ⟨.badEscape, cursor.offset + 1⟩

theorem length_of_lowSurrogate {high : Nat} {cursor after : Cursor} {c : Char}
    (h : lowSurrogate high cursor = .ok (c, after)) : after.rest.length ≤ cursor.rest.length := by
  unfold lowSurrogate at h
  split at h
  · cases h
  · cases h
  · rename_i rest hrest
    cases hhex : hexEscape ⟨rest, cursor.offset + 2⟩ with
    | error failure => simp [hhex, bind, Except.bind] at h
    | ok found =>
      obtain ⟨low, last⟩ := found
      have hlength := length_of_hexEscape hhex
      simp only [hhex, bind, Except.bind] at h
      split at h
      · simp only [Except.ok.injEq, Prod.mk.injEq] at h
        simp only [← h.2, hrest, List.length_cons]
        simp only at hlength
        omega
      · cases h
  · cases h
  · cases h

/-- An escape takes at least the character after the backslash. -/
theorem length_of_escape {cursor after : Cursor} {c : Char}
    (h : escape cursor = .ok (c, after)) : after.rest.length < cursor.rest.length := by
  unfold escape at h
  split at h
  · cases h
  · rename_i d rest hrest
    have hlt : rest.length < cursor.rest.length := by simp [hrest]
    dsimp only at h
    split at h
    case h_9 =>
      cases hhex : hexEscape ⟨rest, cursor.offset + 1⟩ with
      | error failure => simp [hhex, bind, Except.bind] at h
      | ok found =>
        obtain ⟨value, middle⟩ := found
        have hmiddle := length_of_hexEscape hhex
        simp only [hhex, bind, Except.bind] at h
        simp only at hmiddle
        split at h
        · cases h
        · split at h
          · have := length_of_lowSurrogate h
            omega
          · cases h
            omega
    all_goals first | (cases h; exact hlt) | cases h

/-- The characters that a literal denotes, after those in `read`, and the cursor after its closing
quote. -/
def literalFrom (read : List Char) (cursor : Cursor) : Except Failure (List Char × Cursor) :=
  match _hrest : cursor.rest with
  | [] => .error ⟨.stringEnds, cursor.offset⟩
  | c :: rest =>
    if c = '"' then .ok (read.reverse, ⟨rest, cursor.offset + 1⟩)
    else if c = '\\' then
      match _hescape : escape ⟨rest, cursor.offset + 1⟩ with
      | .error failure => .error failure
      | .ok (d, after) => literalFrom (d :: read) after
    else if c.toNat < 0x20 then .error ⟨.controlCharacter, cursor.offset + 1⟩
    else literalFrom (c :: read) ⟨rest, cursor.offset + c.utf8Size⟩
termination_by cursor.rest.length
decreasing_by
  · have := length_of_escape _hescape
    simp only at this
    simp only [_hrest, List.length_cons]
    omega
  · simp [_hrest]

/-- Pass over the rest of a literal. -/
def skipLiteralFrom (cursor : Cursor) : Except Failure Cursor :=
  match _hrest : cursor.rest with
  | [] => .error ⟨.stringEnds, cursor.offset⟩
  | '"' :: rest => .ok ⟨rest, cursor.offset + 1⟩
  | ['\\'] => .error ⟨.stringEnds, cursor.offset + 1⟩
  | '\\' :: 'u' :: rest =>
    match _hhex : hexEscape ⟨rest, cursor.offset + 2⟩ with
    | .error failure => .error failure
    | .ok (_, after) => skipLiteralFrom after
  | '\\' :: c :: rest =>
    if "\"\\/bfnrt".toList.contains c then skipLiteralFrom ⟨rest, cursor.offset + 2⟩
    else .error ⟨.badEscape, cursor.offset + 2⟩
  | c :: rest =>
    if c.toNat < 0x20 then .error ⟨.controlCharacter, cursor.offset⟩
    else skipLiteralFrom ⟨rest, cursor.offset + c.utf8Size⟩
termination_by cursor.rest.length
decreasing_by
  · have := length_of_hexEscape _hhex
    simp only at this
    simp only [_hrest, List.length_cons]
    omega
  · simp only [_hrest, List.length_cons]
    omega
  · simp [_hrest]

namespace Reader

/-- The text of a literal, from after its opening quote. -/
def literal : Reader String := fun cursor =>
  (literalFrom [] cursor).map fun (cs, after) => (String.ofList cs, after)

/-- Pass over a literal, from after its opening quote. -/
def skipLiteral : Reader Unit := fun cursor =>
  (skipLiteralFrom cursor).map fun after => ((), after)

end Reader

end BindingGraph.Json
