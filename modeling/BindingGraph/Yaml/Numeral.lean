import BindingGraph.Decimal.Natural

/-!
# Plain scalars that are more than text

A plain scalar may be a number, a truth value or nothing. A natural number is written in decimal
without leading zeros or, behind `0x`, `0o` and `0b`, in base sixteen, eight and two; a plus sign
may stand before it. `hasOtherReading` says which texts have to be quoted so that they stay texts.
-/

namespace BindingGraph.Yaml

/-- Whether a text is a spelling of nothing. -/
def isNull (cs : List Char) : Bool :=
  ["null", "Null", "NULL", "~"].contains (String.ofList cs)

/-- Whether a text is a spelling of a truth value. -/
def isBool (cs : List Char) : Bool :=
  ["true", "True", "TRUE", "false", "False", "FALSE"].contains (String.ofList cs)

/-- Digits that start with a zero and go on. -/
def hasLeadingZero : List Char → Bool
  | '0' :: c :: cs => (c :: cs).all Char.isDigit
  | _ => false

/-- The number that digits stand for, in the base that their first characters announce. -/
def magnitude? : List Char → Option Nat
  | '0' :: 'x' :: digits => Decimal.digits? 16 digits
  | '0' :: 'o' :: digits => Decimal.digits? 8 digits
  | '0' :: 'b' :: digits => Decimal.digits? 2 digits
  | digits => if hasLeadingZero digits then none else Decimal.digits? 10 digits

/-- The natural number up to `limit` that a text stands for. -/
def natural? (limit : Nat) (cs : List Char) : Option Nat :=
  (magnitude? (Decimal.dropPlus cs)).filter (· ≤ limit)

/-- Whether a text is an integer of 128 bits. -/
def isInteger (cs : List Char) : Bool :=
  match cs with
  | '-' :: digits => (magnitude? digits).any (· ≤ Nat.pow 2 127)
  | cs => (natural? (Nat.pow 2 128 - 1) cs).isSome

/-! ## Decimal fractions -/

/-- The least number that is too large for a double to come near it. -/
def doubleBound : Nat := Nat.pow 2 1024 - Nat.pow 2 970

/-- Whether `digits * 10 ^ exponent` is below the bound of doubles. -/
def isBelowDoubleBound (digits : List Char) (exponent : Int) : Bool :=
  let value := (Decimal.digitsFrom? 10 0 digits).getD 0
  match exponent with
  | .ofNat e => value == 0 || (decide (e ≤ 400) && decide (value * Nat.pow 10 e < doubleBound))
  | .negSucc e =>
    decide (digits.length ≤ e + 1) || decide (value < doubleBound * Nat.pow 10 (e + 1))

/-- The exponent behind a mantissa: nothing, or `e` with a number that may have a sign. -/
def exponent? : List Char → Option Int
  | [] => some 0
  | c :: cs =>
    if c = 'e' ∨ c = 'E' then
      match cs with
      | '-' :: digits => (Decimal.digits? 10 digits).map fun n => -(n : Int)
      | cs => (Decimal.digits? 10 (Decimal.dropPlus cs)).map fun n => (n : Int)
    else none

/-- Whether a text without sign is a decimal fraction within the range of doubles. -/
def isFraction (cs : List Char) : Bool :=
  let whole := cs.takeWhile Char.isDigit
  let (part, rest) := match cs.dropWhile Char.isDigit with
    | '.' :: cs => (cs.takeWhile Char.isDigit, cs.dropWhile Char.isDigit)
    | cs => ([], cs)
  match exponent? rest with
  | some exponent =>
    !(whole ++ part).isEmpty && isBelowDoubleBound (whole ++ part) (exponent - part.length)
  | none => false

/-- Whether a text is a floating point number: a decimal fraction, an infinity, or no number. -/
def isFloat (cs : List Char) : Bool :=
  let isInfinity (cs : List Char) := [".inf", ".Inf", ".INF"].contains (String.ofList cs)
  match cs with
  | '+' :: cs => isInfinity cs || isFraction cs
  | '-' :: cs => isInfinity cs || isFraction cs
  | cs =>
    isInfinity cs || [".nan", ".NaN", ".NAN"].contains (String.ofList cs) || isFraction cs

/-- Whether a text, written plain, may be read as something else than a text. -/
def hasOtherReading (cs : List Char) : Bool :=
  let unsigned := match cs with
    | '+' :: cs | '-' :: cs => cs
    | cs => cs
  cs.isEmpty || isNull cs || isBool cs || isInteger cs || hasLeadingZero unsigned || isFloat cs

end BindingGraph.Yaml
