/-!
# Natural numbers of sixty-four bits in decimal

A numeral is an optional plus sign followed by one or more of the ten ASCII digits; leading zeros
are allowed. It is refused when its value does not fit into sixty-four bits.
-/

namespace BindingGraph.Decimal

/-- The largest number of sixty-four bits. -/
def maxWord : Nat := Nat.pow 2 64 - 1

/-- The value of a digit in base `base`, which is at most sixteen. -/
def digitIn? (base : Nat) (c : Char) : Option Nat :=
  let value? :=
    if '0' ≤ c ∧ c ≤ '9' then some (c.toNat - '0'.toNat)
    else if 'a' ≤ c ∧ c ≤ 'f' then some (c.toNat - 'a'.toNat + 10)
    else if 'A' ≤ c ∧ c ≤ 'F' then some (c.toNat - 'A'.toNat + 10)
    else none
  value?.filter (· < base)

/-- The value of a list of digits that follows the value `acc` of those before it. -/
def digitsFrom? (base acc : Nat) : List Char → Option Nat
  | [] => some acc
  | c :: cs =>
    match digitIn? base c with
    | some d => digitsFrom? base (base * acc + d) cs
    | none => none

/-- The value of a list of one or more digits. -/
def digits? (base : Nat) (cs : List Char) : Option Nat :=
  if cs.isEmpty then none else digitsFrom? base 0 cs

/-- The digits after an optional plus sign. -/
def dropPlus : List Char → List Char
  | '+' :: cs => cs
  | cs => cs

/-- The number of sixty-four bits that a text denotes. -/
def word? (text : String) : Option Nat :=
  (digits? 10 (dropPlus text.toList)).filter (· ≤ maxWord)

end BindingGraph.Decimal
