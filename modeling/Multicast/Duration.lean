/-!
Lengths of time and their text. A length is written in the largest of the units second,
millisecond, microsecond and nanosecond of which it holds one, with as many decimals as it needs.
-/

namespace Multicast

/-- A length of time: whole seconds and nanoseconds beyond them. -/
structure Duration where
  seconds : Nat
  nanos : Nat
  deriving DecidableEq, Repr, Inhabited

namespace Duration

def ofMillis (m : Nat) : Duration := ⟨m / 1000, m % 1000 * 1000000⟩

def ofSeconds (s : Nat) : Duration := ⟨s, 0⟩

def millis (d : Duration) : Nat := d.seconds * 1000 + d.nanos / 1000000

/-- The whole length in nanoseconds. -/
def inNanos (d : Duration) : Nat := d.seconds * 1000000000 + d.nanos

def isZero (d : Duration) : Bool := d.seconds == 0 && d.nanos == 0

/-- The decimals of `n / 10 ^ width` after the point, without zeros at the end. -/
def decimals (n width : Nat) : String :=
  let digits := (Nat.toDigits 10 n)
  let padded := List.replicate (width - digits.length) '0' ++ digits
  let kept := (padded.reverse.dropWhile (· == '0')).reverse
  if kept.isEmpty then "" else "." ++ String.ofList kept

/-- The length in the largest unit that fits. -/
def text (d : Duration) : String :=
  if d.seconds > 0 then toString d.seconds ++ decimals d.nanos 9 ++ "s"
  else if d.nanos ≥ 1000000 then
    toString (d.nanos / 1000000) ++ decimals (d.nanos % 1000000) 6 ++ "ms"
  else if d.nanos ≥ 1000 then toString (d.nanos / 1000) ++ decimals (d.nanos % 1000) 3 ++ "µs"
  else toString d.nanos ++ "ns"

end Duration

end Multicast
