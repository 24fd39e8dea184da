/-!
# Durations and their text

A duration is a whole number of nanoseconds. Its text uses the largest of the units s, ms, µs and ns
in which it is at least one, with as many decimals as it takes to be exact: `1.5s`, `250ms`, `0ns`.
-/

namespace BindingGraph

/-- A span of time in whole nanoseconds. -/
structure Duration where
  nanos : Nat
  deriving DecidableEq

namespace Duration

/-- The duration of a number of milliseconds. -/
def ofMillis (millis : Nat) : Duration := ⟨millis * 1000000⟩

/-- The duration of a number of seconds and nanoseconds. -/
def ofParts (seconds nanos : Nat) : Duration := ⟨seconds * 1000000000 + nanos⟩

/-- The decimals of `part / 10 ^ places` with their point, without trailing zeros; nothing for a
whole number. -/
def decimals (part places : Nat) : String :=
  if part = 0 then ""
  else
    let digits := Nat.toDigits 10 part
    let padded := List.replicate (places - digits.length) '0' ++ digits
    "." ++ String.ofList (padded.reverse.dropWhile (· == '0')).reverse

/-- The duration in units of `10 ^ places` nanoseconds. -/
def inUnit (d : Duration) (places : Nat) (unit : String) : String :=
  toString (d.nanos / Nat.pow 10 places) ++ decimals (d.nanos % Nat.pow 10 places) places ++ unit

/-- The exact text in the largest unit that fits. -/
def text (d : Duration) : String :=
  if 1000000000 ≤ d.nanos then d.inUnit 9 "s"
  else if 1000000 ≤ d.nanos then d.inUnit 6 "ms"
  else if 1000 ≤ d.nanos then d.inUnit 3 "µs"
  else d.inUnit 0 "ns"

end Duration

end BindingGraph
