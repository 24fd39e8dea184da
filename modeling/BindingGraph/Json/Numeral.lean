import BindingGraph.Decimal.Natural
import BindingGraph.Json.Cursor

/-!
# Numbers

A number without point and exponent that fits into sixty-four bits is exact; any other is taken as a
binary fraction, computed from its leading digits and a power of ten. `skipNumber` passes over a
number of any size.
-/

namespace BindingGraph.Json

/-- The digits of a number that fit into sixty-four bits, and how many did not. -/
structure Leading where
  value : Nat
  dropped : Nat

/-- Take one more digit, unless it or one before it does not fit. -/
def Leading.push (leading : Leading) (c : Char) : Leading :=
  let next := leading.value * 10 + (c.toNat - '0'.toNat)
  if leading.dropped = 0 ∧ next ≤ Decimal.maxWord then ⟨next, 0⟩
  else ⟨leading.value, leading.dropped + 1⟩

/-- The power of ten as a binary fraction. -/
def powerOfTen (n : Nat) : Float := Float.ofScientific 1 false n

/-- The value `significand * 10 ^ exponent`, by one multiplication or division for every 308 places;
`none` if it is too large. -/
def scaleFloat (value : Float) (exponent : Int) (fuel : Nat) : Option Float :=
  if exponent.natAbs ≤ 308 then
    if 0 ≤ exponent then
      let scaled := value * powerOfTen exponent.natAbs
      if scaled.isInf then none else some scaled
    else some (value / powerOfTen exponent.natAbs)
  else if value == 0.0 then some value
  else if 0 ≤ exponent then none
  else
    match fuel with
    | 0 => some 0.0
    | fuel + 1 => scaleFloat (value / powerOfTen 308) (exponent + 308) fuel

namespace Reader

/-- Whether a character is a digit. -/
def isDigit (c : Char) : Bool := '0' ≤ c && c ≤ '9'

/-- The digits that come next. -/
def digits : Reader (List Char) := fun cursor =>
  let found := cursor.rest.takeWhile isDigit
  .ok (found, ⟨cursor.rest.dropWhile isDigit, cursor.offset + found.length⟩)

/-- The binary fraction of a significand and an exponent of ten. -/
def float (positive : Bool) (significand : Nat) (exponent : Int) : Reader Found := do
  match scaleFloat significand.toUInt64.toFloat exponent 8 with
  | some value => return .float (if positive then value else -value)
  | none => failHere .numberTooLarge

/-- The first digits of an exponent that no number of thirty-two bits can hold, if there are any. -/
def hugeExponent? (acc taken : Nat) : List Char → Option Nat
  | [] => none
  | c :: cs =>
    let next := acc * 10 + (c.toNat - '0'.toNat)
    if 2147483647 < next then some (taken + 1) else hugeExponent? next (taken + 1) cs

/-- The exponent of a number, from its letter on. -/
def exponent (positive : Bool) (significand : Nat) (places : Int) : Reader Found := do
  skip
  let raises ← do
    match ← peek? with
    | some '+' => skip; pure true
    | some '-' => skip; pure false
    | _ => pure true
  match ← peek? with
  | none => failHere .valueEnds
  | some c =>
    if !isDigit c then failNext .badNumber
    else
      let before ← get
      let found ← digits
      match hugeExponent? 0 0 found with
      | some taken =>
        -- Nothing but zero stays finite, and everything becomes zero the other way.
        if significand ≠ 0 ∧ raises then
          set (⟨before.rest.drop taken, before.offset + taken⟩ : Cursor)
          failHere .numberTooLarge
        else return .float (if positive then 0.0 else -0.0)
      | none =>
        let power : Int := ((Decimal.digitsFrom? 10 0 found).getD 0 : Nat)
        float positive significand (if raises then places + power else places - power)

/-- The decimals of a number, from its point on. `places` digits before the point were dropped. -/
def decimals (positive : Bool) (significand : Nat) (places : Int) : Reader Found := do
  skip
  let found ← digits
  if found.isEmpty then
    match ← peek? with
    | some _ => failNext .badNumber
    | none => failNext .valueEnds
  else
    let leading := found.foldl Leading.push ⟨significand, 0⟩
    let places := places - ((found.length - leading.dropped : Nat) : Int)
    match ← peek? with
    | some 'e' | some 'E' => exponent positive leading.value places
    | _ => float positive leading.value places

/-- A number from its first digit on. -/
def number (positive : Bool) : Reader Found := do
  match ← peek? with
  | none => failHere .valueEnds
  | some c =>
    if !isDigit c then failNext .badNumber
    else
      let found ← if c = '0' then do skip; pure ['0'] else digits
      let follows ← peek?
      if c = '0' ∧ follows.any isDigit then failNext .badNumber
      else
        let leading := found.foldl Leading.push ⟨0, 0⟩
        match follows with
        | some '.' => decimals positive leading.value leading.dropped
        | some 'e' | some 'E' => exponent positive leading.value leading.dropped
        | _ =>
          if leading.dropped ≠ 0 then float positive leading.value leading.dropped
          else if positive then return .natural leading.value
          else if 1 ≤ leading.value ∧ leading.value ≤ Nat.pow 2 63 then
            return .negative leading.value
          else float false leading.value 0

/-- Pass over the exponent of a number, from its letter on. -/
def skipExponent : Reader Unit := do
  skip
  match ← peek? with
  | some '+' | some '-' => skip
  | _ => pure ()
  match ← peek? with
  | some c =>
    if isDigit c then
      let _ ← digits
    else failNext .badNumber
  | none => failHere .badNumber

/-- Pass over a number from its first digit on. -/
def skipNumber : Reader Unit := do
  match ← peek? with
  | none => failHere .badNumber
  | some c =>
    if !isDigit c then failNext .badNumber
    else
      if c = '0' then skip
      else
        let _ ← digits
      match ← peek? with
      | some '.' =>
        skip
        let found ← digits
        if found.isEmpty then failNext .badNumber
        else
          match ← peek? with
          | some 'e' | some 'E' => skipExponent
          | _ => pure ()
      | some 'e' | some 'E' => skipExponent
      | some d => if c = '0' ∧ isDigit d then failNext .badNumber else pure ()
      | none => pure ()

end Reader

end BindingGraph.Json
