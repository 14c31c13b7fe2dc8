/-
The shortest decimal that reads back as a given float, and its text.

The reals that round to a float form an interval around it (its ends count when the mantissa is even). `shortest` tries
grids of 1, 2, ... 17 digits and on each the two neighbours of the value; the first grid with a neighbour in the interval
wins, and of two the nearer; `Tie` settles which when both are equally near. A grid with any point in the interval has
such a neighbour, so no shorter decimal reads back.

`positional` writes a decimal without an exponent part; `scientific` switches to one outside a window of sizes.
-/
import SqlAccess.Numeral.Binary64

namespace SqlAccess

/-- the decimal `coefficient · 10 ^ exponent` -/
structure Decimal where
  coefficient : Nat
  exponent : Int
  deriving DecidableEq, Repr

namespace Decimal

/-! ## The interval of a float -/

/-- A value with the ends of the interval that rounds to it, as numerators over one denominator. -/
structure Neighbourhood where
  low : Nat
  value : Nat
  high : Nat
  denominator : Nat
  closed : Bool
  deriving Repr

/-- The interval around `mantissa · 2 ^ exponent`. Below a power of two the floats lie twice as close. -/
def Neighbourhood.of (mantissa : Nat) (exponent : Int) : Neighbourhood :=
  let (below, centre, above, shift) :=
    if mantissa = Nat.pow 2 52 then (4 * mantissa - 1, 4 * mantissa, 4 * mantissa + 2, exponent - 2)
    else (2 * mantissa - 1, 2 * mantissa, 2 * mantissa + 1, exponent - 1)
  let closed := mantissa % 2 == 0
  if 0 ≤ shift then
    let scale := Nat.pow 2 shift.toNat
    ⟨below * scale, centre * scale, above * scale, 1, closed⟩
  else ⟨below, centre, above, Nat.pow 2 (-shift).toNat, closed⟩

/-- whether `point / scale`, on the denominator of the interval, lies in it -/
def Neighbourhood.holds (n : Neighbourhood) (point scale : Nat) : Bool :=
  if n.closed then n.low * scale ≤ point && point ≤ n.high * scale
  else n.low * scale < point && point < n.high * scale

/-- the number of digits before the point; for a value below one, minus the zeros behind it -/
def magnitude (value denominator : Nat) : Int :=
  if denominator ≤ value then (Text.ofNat (value / denominator)).length
  else
    let zeros := (Text.ofNat (denominator / value)).length - 1
    if denominator ≤ value * Nat.pow 10 zeros then 1 - (zeros : Int) else -(zeros : Int)

/-! ## The search -/

/-- which of two equally near points of a grid is taken: the upper, or the one with an even last digit -/
inductive Tie where
  | upper
  | even
  deriving DecidableEq, Repr

/-- whether the lower of two neighbours is taken, the value standing `rest / unit` of the way above it -/
def Tie.takesLower (tie : Tie) (lower rest unit : Nat) : Bool :=
  2 * rest < unit || (2 * rest == unit && tie == .even && lower % 2 == 0)

/-- The better neighbour of the value on the grid of multiples of `10 ^ exponent`, if one lies in the interval. -/
def onGrid (tie : Tie) (n : Neighbourhood) (exponent : Int) : Option Nat :=
  let up := Nat.pow 10 exponent.toNat
  let down := Nat.pow 10 (-exponent).toNat
  let value := n.value * down
  let unit := n.denominator * up
  let floor := value / unit
  let lower := n.holds (floor * unit) down
  let upper := n.holds ((floor + 1) * unit) down
  if lower && upper then some (if tie.takesLower floor (value % unit) unit then floor else floor + 1)
  else if lower then some floor
  else if upper then some (floor + 1)
  else none

/-- the first grid with a point in the interval, from `digits` digits on; the last grid keeps the value's floor -/
def search (tie : Tie) (n : Neighbourhood) (size : Int) : (grids digits : Nat) → Decimal
  | 0, digits => ⟨n.value * Nat.pow 10 (digits - size).toNat / n.denominator, size - digits⟩
  | grids + 1, digits =>
    match onGrid tie n (size - digits) with
    | some c => ⟨c, size - digits⟩
    | none => search tie n size grids (digits + 1)

/-- trailing zeros of the coefficient moved into the exponent -/
def normalized (d : Decimal) : Decimal :=
  let digits := Text.ofNat d.coefficient
  let zeros := (digits.reverse.takeWhile (· == '0')).length
  if d.coefficient = 0 then ⟨0, 0⟩ else ⟨d.coefficient / Nat.pow 10 zeros, d.exponent + zeros⟩

/-- the shortest decimal that rounds to `mantissa · 2 ^ exponent` -/
def shortest (tie : Tie) (mantissa : Nat) (exponent : Int) : Decimal :=
  if mantissa = 0 then ⟨0, 0⟩
  else
    let n := Neighbourhood.of mantissa exponent
    normalized (search tie n (magnitude n.value n.denominator) 17 1)

/-! ## Text -/

/-- `n` zeros -/
def zeros (n : Nat) : Text := List.replicate n '0'

/-- digits without an exponent part: no point in a whole number, a zero before a leading point -/
def positional (d : Decimal) : Text :=
  let digits := Text.ofNat d.coefficient
  if 0 ≤ d.exponent then digits ++ zeros d.exponent.toNat
  else
    let places := (-d.exponent).toNat
    if places < digits.length then
      digits.take (digits.length - places) ++ '.' :: digits.drop (digits.length - places)
    else '0' :: '.' :: (zeros (places - digits.length) ++ digits)

/-- Where a number leaves positional notation, and what a whole number ends in. -/
structure Style where
  leastPoint : Int
  greatestPoint : Int
  wholeEnd : Text

/-- The notation of JSON texts: positional while the point stands from four places before the digits to sixteen behind
their start, and a whole number ends in `.0`. -/
def Style.json : Style := ⟨-4, 16, ".0"⟩

/-- positional inside the window, else one digit, the others behind a point, and `e` with the exponent and its sign -/
def scientific (style : Style) (d : Decimal) : Text :=
  let digits := Text.ofNat d.coefficient
  let point := d.exponent + digits.length
  if style.leastPoint ≤ point ∧ point ≤ style.greatestPoint then
    if 0 ≤ d.exponent then positional d ++ style.wholeEnd else positional d
  else
    let tail := digits.drop 1
    digits.take 1 ++ (if tail.isEmpty then [] else '.' :: tail) ++ 'e' ::
      (if point < 1 then '-' else '+') :: Text.ofNat (point - 1).natAbs

end Decimal

namespace Binary64

/-- the decimal of a finite float without its sign, and whether it has one -/
def decimal? (tie : Decimal.Tie) (x : Binary64) : Option (Bool × Decimal) :=
  match x.view with
  | .finite negative mantissa exponent => some (negative, Decimal.shortest tie mantissa exponent)
  | _ => none

def signed (negative : Bool) (t : Text) : Text := if negative then '-' :: t else t

end Binary64

end SqlAccess
