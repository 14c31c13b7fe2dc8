/-
A span of time in seconds and nanoseconds, and its text in the largest unit that leaves a whole part.
-/
import SqlAccess.Numeral.Integer

namespace SqlAccess

/-- a span of time; `nanos` is below a thousand million when built by `ofParts` -/
structure Duration where
  secs : Nat
  nanos : Nat
  deriving DecidableEq, Repr

namespace Duration

def ofSeconds (n : Nat) : Duration := ⟨n, 0⟩

/-- seconds and nanoseconds, full seconds carried over -/
def ofParts (secs nanos : Nat) : Duration := ⟨secs + nanos / 1_000_000_000, nanos % 1_000_000_000⟩

/-- A whole part and a fraction of `places` digits, trailing zeros of the fraction left out. -/
def fixed (whole fraction places : Nat) : Text :=
  let digits := ((Text.padded places fraction).reverse.dropWhile (· == '0')).reverse
  Text.ofNat whole ++ if fraction = 0 then [] else '.' :: digits

/-- the span in seconds, else milliseconds, else microseconds, else nanoseconds -/
def text (d : Duration) : Text :=
  if d.secs ≠ 0 then fixed d.secs d.nanos 9 ++ "s"
  else if 1_000_000 ≤ d.nanos then fixed (d.nanos / 1_000_000) (d.nanos % 1_000_000) 6 ++ "ms"
  else if 1_000 ≤ d.nanos then fixed (d.nanos / 1_000) (d.nanos % 1_000) 3 ++ "µs"
  else Text.ofNat d.nanos ++ "ns"

end Duration

end SqlAccess
