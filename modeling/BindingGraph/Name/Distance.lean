/-!
# Edit distance between names

`distance a b` is the least number of single-character insertions, deletions and substitutions that
turn `a` into `b`, over Unicode scalar values. It is computed row by row, each row as long as the
shorter of the two names. `Edits` says on its own what an edit is, so that "least number" can be
stated without the table.
-/

namespace BindingGraph.Name

/-! ## Edits -/

/-- One insertion, deletion or substitution of a single character. -/
inductive Edit : List Char → List Char → Prop where
  | insert (front back : List Char) (c : Char) : Edit (front ++ back) (front ++ c :: back)
  | delete (front back : List Char) (c : Char) : Edit (front ++ c :: back) (front ++ back)
  | substitute (front back : List Char) (c d : Char) :
      Edit (front ++ c :: back) (front ++ d :: back)

/-- `Edits n a b`: some sequence of `n` edits turns `a` into `b`. -/
inductive Edits : Nat → List Char → List Char → Prop where
  | none (a : List Char) : Edits 0 a a
  | more {n : Nat} {a b c : List Char} : Edit a b → Edits n b c → Edits (n + 1) a c

/-! ## The table, row by row -/

/-- The entries of the next row after its first one: `left` is the entry just computed, and the row
above supplies the entry above-left and the entry above. -/
def nextEntries (c : Char) : List Char → List Nat → Nat → List Nat
  | d :: ds, aboveLeft :: above :: rest, left =>
    let entry := min (min (aboveLeft + if c = d then 0 else 1) (above + 1)) (left + 1)
    entry :: nextEntries c ds (above :: rest) entry
  | _, _, _ => []

/-- The row for one more character `c` of the longer name. -/
def nextRow (c : Char) (short : List Char) (row : List Nat) : List Nat :=
  let first := row.headD 0 + 1
  first :: nextEntries c short row first

/-- The last row of the table, whose last entry is the distance. -/
def lastRow (long short : List Char) : List Nat :=
  long.foldl (fun row c => nextRow c short row) (List.range (short.length + 1))

/-- The edit distance of two lists of characters: the row follows the shorter one. -/
def charDistance (a b : List Char) : Nat :=
  if b.length ≤ a.length then (lastRow a b).getLastD 0 else (lastRow b a).getLastD 0

/-- The least number of single-character edits between two names. -/
def distance (a b : String) : Nat :=
  charDistance a.toList b.toList

end BindingGraph.Name
