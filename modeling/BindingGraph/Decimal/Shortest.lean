/-!
# The shortest decimal that reads back

A binary fraction stands for every real number that rounds to it. Of the decimals with one, two,
three and so on significant digits, the first grid with a point in that interval gives the digits;
of two such points the nearer counts, and of two equally near the even one. All comparisons are made
with whole numbers.

`text` writes the digits: positionally while the leading digit stands between the fifth decimal and
the sixteenth place before the point, and otherwise with an exponent that has its sign and no zeros
in front.
-/

namespace BindingGraph.Decimal

/-- The number `mantissa * 2 ^ exponent`. When `narrow`, the next smaller number is only half as far
away as the next larger one. -/
structure Binary where
  mantissa : Nat
  exponent : Int
  narrow : Bool

/-- The digits `coefficient` scaled by `10 ^ place`. -/
structure Scaled where
  coefficient : Nat
  place : Int

namespace Binary

/-- The magnitude with the given sixty-four bits, whose sign is left out. -/
def ofBits (bits : UInt64) : Binary :=
  let fraction := bits.toNat % Nat.pow 2 52
  let field : Nat := bits.toNat / Nat.pow 2 52 % Nat.pow 2 11
  if field = 0 then ⟨fraction, -1074, false⟩
  else ⟨fraction + Nat.pow 2 52, (field : Int) - 1075, fraction == 0 && field > 1⟩

/-- The exponent of ten of the leading digit of `units * 2 ^ exponent`. -/
def leadingPlace (units : Nat) (exponent : Int) : Int :=
  let numerator := units * Nat.pow 2 exponent.toNat
  let denominator := Nat.pow 2 (-exponent).toNat
  if denominator ≤ numerator then
    ((Nat.toDigits 10 (numerator / denominator)).length : Int) - 1
  else
    match (List.range 400).find? fun j => denominator ≤ numerator * Nat.pow 10 (j + 1) with
    | some j => -((j : Int) + 1)
    | none => -400

/-- The point of the grid of multiples of `10 ^ place` that rounds to the number, if there
is one. -/
def onGrid? (b : Binary) (place : Int) : Option Nat :=
  -- Quarters of the last binary place make the ends of the interval whole.
  let scale := b.exponent - 2
  let unit := Nat.pow 10 place.toNat * Nat.pow 2 (-scale).toNat
  let quarter := Nat.pow 2 scale.toNat * Nat.pow 10 (-place).toNat
  let value := 4 * b.mantissa * quarter
  let low := (4 * b.mantissa - if b.narrow then 1 else 2) * quarter
  let high := (4 * b.mantissa + 2) * quarter
  let rounds (c : Nat) : Bool :=
    if b.mantissa % 2 = 0 then low ≤ c * unit && c * unit ≤ high
    else low < c * unit && c * unit < high
  let below := value / unit
  let above := below + 1
  match rounds below, rounds above with
  | true, true =>
    let left := value - below * unit
    let right := above * unit - value
    some (if left < right || (left == right && below % 2 == 0) then below else above)
  | true, false => some below
  | false, true => some above
  | false, false => none

/-- The shortest decimal of a positive number. -/
def shortest (b : Binary) : Scaled :=
  let leading := leadingPlace (4 * b.mantissa) (b.exponent - 2)
  let found := (List.range 17).findSome? fun (n : Nat) =>
    let place := leading - n
    (b.onGrid? place).map fun coefficient => (⟨coefficient, place⟩ : Scaled)
  found.getD ⟨0, 0⟩

end Binary

/-- The digits of a coefficient without trailing zeros. -/
def significantDigits (coefficient : Nat) : List Char :=
  ((Nat.toDigits 10 coefficient).reverse.dropWhile (· == '0')).reverse

/-- A scaled decimal in writing. -/
def Scaled.text (s : Scaled) : String :=
  let digits := significantDigits s.coefficient
  let leading := s.place + (Nat.toDigits 10 s.coefficient).length - 1
  let orZero (cs : List Char) : List Char := if cs.isEmpty then ['0'] else cs
  if 0 ≤ leading ∧ leading ≤ 15 then
    let whole := leading.toNat + 1
    String.ofList (digits.take whole ++ List.replicate (whole - digits.length) '0' ++ ['.'] ++
      orZero (digits.drop whole))
  else if -5 ≤ leading ∧ leading < 0 then
    String.ofList (['0', '.'] ++ List.replicate ((-leading).toNat - 1) '0' ++ digits)
  else
    let power := Nat.toDigits 10 leading.natAbs
    let fraction := if digits.length ≤ 1 then [] else '.' :: digits.drop 1
    String.ofList (digits.take 1 ++ fraction ++ ['e', if leading < 0 then '-' else '+'] ++ power)

/-- The shortest text of a finite number that reads back as the same number. -/
def text (x : Float) : String :=
  let bits := x.toBits
  let magnitude := Binary.ofBits bits
  let sign := if Nat.pow 2 63 ≤ bits.toNat then "-" else ""
  sign ++ if magnitude.mantissa = 0 then "0.0" else magnitude.shortest.text

end BindingGraph.Decimal
