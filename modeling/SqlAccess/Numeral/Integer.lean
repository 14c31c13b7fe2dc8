/-
Integers: the decimal text of a number, the value of digits in any base, and the decimal reader that accepts an optional
sign and digits within bounds.

`Integer.read` reports the first position where reading must stop: a character that is no digit, or a value that has left
the bounds. A number written by `ofInt` and within the bounds is read back.
-/
import SqlAccess.Text

namespace SqlAccess

namespace Text

def ofNat (n : Nat) : Text := Nat.toDigits 10 n

/-- the decimal digits of an integer, after `-` when it is negative -/
def ofInt : Int → Text
  | .ofNat n => ofNat n
  | .negSucc n => '-' :: ofNat (n + 1)

/-- the digits with zeros in front up to `width` -/
def padded (width n : Nat) : Text := List.replicate (width - (ofNat n).length) '0' ++ ofNat n

def digitValue (c : Char) : Nat := c.toNat - '0'.toNat

/-- the value of a digit below `base`; letters of either case count on from ten -/
def digitIn? (base : Nat) (c : Char) : Option Nat :=
  let n := if c.isDigit then digitValue c else if c.isAlpha then 10 + (c.toLower.toNat - 'a'.toNat) else base
  if n < base then some n else none

/-- the whole number that digits of a base write, zero without any -/
def wholeIn? (base : Nat) (digits : Text) : Option Nat :=
  digits.foldlM (fun n c => (digitIn? base c).map fun d => n * base + d) 0

end Text

namespace Integer

inductive Fault where
  | empty
  | invalidDigit
  | tooLarge
  | tooSmall
  deriving DecidableEq, Repr

def Fault.message : Fault → Text
  | .empty => "cannot parse integer from empty string"
  | .invalidDigit => "invalid digit found in string"
  | .tooLarge => "number too large to fit in target type"
  | .tooSmall => "number too small to fit in target type"

/-- the integers a reader accepts, and whether it takes a minus sign at all -/
structure Range where
  signed : Bool
  least : Int
  greatest : Int
  deriving DecidableEq, Repr

/-- the integers of `bits` bits without a sign -/
def Range.unsigned (bits : Nat) : Range := ⟨false, 0, Nat.pow 2 bits - 1⟩

/-- the integers of `bits` bits in two's complement -/
def Range.twosComplement (bits : Nat) : Range := ⟨true, -(Nat.pow 2 (bits - 1) : Nat), (Nat.pow 2 (bits - 1) : Nat) - 1⟩

/-- digits read upwards from `value`; stops where a character is no digit or the value passes the greatest -/
def readUp (range : Range) (value : Int) : Text → Except Fault Int
  | [] => .ok value
  | c :: r =>
    if !c.isDigit then .error .invalidDigit
    else if value * 10 + Text.digitValue c > range.greatest then .error .tooLarge
    else readUp range (value * 10 + Text.digitValue c) r

/-- digits read downwards from `value`; stops where a character is no digit or the value passes the least -/
def readDown (range : Range) (value : Int) : Text → Except Fault Int
  | [] => .ok value
  | c :: r =>
    if !c.isDigit then .error .invalidDigit
    else if value * 10 - Text.digitValue c < range.least then .error .tooSmall
    else readDown range (value * 10 - Text.digitValue c) r

/-- An integer with an optional sign. A sign alone is no number, and `-` counts only where the range has a sign. -/
def read (range : Range) : Text → Except Fault Int
  | [] => .error .empty
  | ['+'] => .error .invalidDigit
  | ['-'] => .error .invalidDigit
  | '+' :: digits => readUp range 0 digits
  | '-' :: digits => if range.signed then readDown range 0 digits else .error .invalidDigit
  | digits => readUp range 0 digits

end Integer

end SqlAccess
