/-
Binary floating point in 64 bits, as its bit pattern: what a pattern stands for, and the pattern nearest to a ratio.

`Binary64.view` reads a pattern as not-a-number, an infinity, or `± mantissa · 2 ^ exponent`. `Binary64.ofRatio` rounds a
ratio to nearest, ties to the even mantissa, with gradual underflow and overflow to infinity. `Binary64.read` accepts the
decimal notation of a float and rounds once.
-/
import SqlAccess.Numeral.Integer

namespace SqlAccess

/-- a float of 64 bits, kept as its bits so that equal means identical -/
structure Binary64 where
  bits : UInt64
  deriving DecidableEq, Repr

namespace Binary64

/-- what a pattern of bits stands for; `finite` is `± mantissa · 2 ^ exponent` -/
inductive View where
  | notANumber
  | infinite (negative : Bool)
  | finite (negative : Bool) (mantissa : Nat) (exponent : Int)
  deriving DecidableEq, Repr

def negative (x : Binary64) : Bool := Nat.pow 2 63 ≤ x.bits.toNat

def exponentField (x : Binary64) : Nat := x.bits.toNat / Nat.pow 2 52 % Nat.pow 2 11

def fractionField (x : Binary64) : Nat := x.bits.toNat % Nat.pow 2 52

/-- the value of a pattern; the hidden bit is set unless the exponent field is zero -/
def view (x : Binary64) : View :=
  if x.exponentField = 2047 then
    if x.fractionField = 0 then .infinite x.negative else .notANumber
  else if x.exponentField = 0 then .finite x.negative x.fractionField (-1074)
  else .finite x.negative (Nat.pow 2 52 + x.fractionField) ((x.exponentField : Int) - 1075)

def isNaN (x : Binary64) : Bool := x.view == .notANumber

/-- Numeric equality: not-a-number differs from everything, and both zeros are equal. -/
def same (x y : Binary64) : Bool :=
  match x.view, y.view with
  | .notANumber, _ => false
  | _, .notANumber => false
  | .finite _ 0 _, .finite _ 0 _ => true
  | _, _ => x == y

/-- the pattern with the given sign and the other 63 bits -/
def pack (negative : Bool) (magnitude : Nat) : Binary64 :=
  ⟨UInt64.ofNat ((if negative then Nat.pow 2 63 else 0) + magnitude)⟩

def nan : Binary64 := pack false 0x7ff8000000000000

def infinity (negative : Bool) : Binary64 := pack negative 0x7ff0000000000000

/-- the nearest whole number to `num / den`, a tie going to the even one -/
def roundToEven (num den : Nat) : Nat :=
  if 2 * (num % den) < den then num / den
  else if 2 * (num % den) > den then num / den + 1
  else num / den + num / den % 2

/-- the ratio `num / (den · 2 ^ exponent)` as a pair -/
def scaledDown (num den : Nat) (exponent : Int) : Nat × Nat :=
  if 0 ≤ exponent then (num, den * Nat.pow 2 exponent.toNat) else (num * Nat.pow 2 (-exponent).toNat, den)

/-- The binary exponent at which `num / den` has a mantissa of 53 bits, at least -1074. -/
def fittingExponent (num den : Nat) : Int :=
  let guess : Int := (Nat.log2 num : Int) - Nat.log2 den - 52
  let (n, d) := scaledDown num den guess
  max (if n / d < Nat.pow 2 52 then guess - 1 else guess) (-1074)

/-- The float nearest to `± num / den`, ties to even. A carry out of the mantissa runs into the exponent field. -/
def ofRatio (negative : Bool) (num den : Nat) : Binary64 :=
  if num = 0 then pack negative 0
  else
    let exponent := fittingExponent num den
    let (n, d) := scaledDown num den exponent
    let mantissa := roundToEven n d
    let magnitude := (exponent + 1074).toNat * Nat.pow 2 52 + mantissa
    if 0x7ff0000000000000 ≤ magnitude then infinity negative else pack negative magnitude

/-- The float nearest to `± coefficient · 10 ^ exponent`. Sizes far outside the range are settled by counting digits. -/
def ofDecimal (negative : Bool) (coefficient : Nat) (exponent : Int) : Binary64 :=
  let digits : Int := (Text.ofNat coefficient).length
  if coefficient = 0 then pack negative 0
  else if exponent + digits > 400 then infinity negative
  else if exponent + digits < -400 then pack negative 0
  else if 0 ≤ exponent then ofRatio negative (coefficient * Nat.pow 10 exponent.toNat) 1
  else ofRatio negative coefficient (Nat.pow 10 (-exponent).toNat)

/-- a float of 32 bits, which 64 bits hold exactly -/
def ofBinary32 (bits : UInt32) : Binary64 :=
  let negative := decide (Nat.pow 2 31 ≤ bits.toNat)
  let exponent := bits.toNat / Nat.pow 2 23 % Nat.pow 2 8
  let fraction := bits.toNat % Nat.pow 2 23
  if exponent = 255 then if fraction = 0 then infinity negative else nan
  else if exponent = 0 then ofRatio negative fraction (Nat.pow 2 149)
  else if 150 ≤ exponent then ofRatio negative ((Nat.pow 2 23 + fraction) * Nat.pow 2 (exponent - 150)) 1
  else ofRatio negative (Nat.pow 2 23 + fraction) (Nat.pow 2 (150 - exponent))

/-! ## Reading decimal notation -/

inductive Fault where
  | empty
  | invalid
  deriving DecidableEq, Repr

def Fault.message : Fault → Text
  | .empty => "cannot parse float from empty string"
  | .invalid => "invalid float literal"

/-- the whole number a run of digits writes -/
def digitsValue (digits : Text) : Nat := digits.foldl (fun n c => n * 10 + Text.digitValue c) 0

/-- an exponent part: `e`, an optional sign and digits; nothing at all counts as zero -/
def readExponent : Text → Option Int
  | [] => some 0
  | mark :: r =>
    if mark != 'e' && mark != 'E' then none
    else match r with
      | '-' :: digits => if Text.isDigits digits then some (-(digitsValue digits : Int)) else none
      | '+' :: digits => if Text.isDigits digits then some (digitsValue digits) else none
      | digits => if Text.isDigits digits then some (digitsValue digits) else none

/-- digits with an optional point and exponent; at least one digit stands before or after the point -/
def readUnsigned (negative : Bool) (t : Text) : Option Binary64 :=
  let whole := t.takeWhile Char.isDigit
  let (fraction, rest) :=
    match t.dropWhile Char.isDigit with
    | '.' :: r => (r.takeWhile Char.isDigit, r.dropWhile Char.isDigit)
    | r => ([], r)
  if whole.isEmpty && fraction.isEmpty then none
  else (readExponent rest).map fun exponent =>
    ofDecimal negative (digitsValue (whole ++ fraction)) (exponent - fraction.length)

/-- the magnitude after the sign: a decimal, or one of the names in any case -/
def readMagnitude (negative : Bool) (t : Text) : Option Binary64 :=
  if t.lower = "inf" ∨ t.lower = "infinity" then some (infinity negative)
  else if t.lower = "nan" then some nan
  else readUnsigned negative t

/-- a float in decimal notation, rounded once to the nearest pattern -/
def read (t : Text) : Except Fault Binary64 :=
  let answer (x : Option Binary64) := x.elim (.error .invalid) .ok
  match t with
  | [] => .error .empty
  | '+' :: r => answer (readMagnitude false r)
  | '-' :: r => answer (readMagnitude true r)
  | r => answer (readMagnitude false r)

end Binary64

end SqlAccess
