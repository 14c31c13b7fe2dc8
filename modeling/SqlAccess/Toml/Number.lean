/-
The numbers of TOML, kept as they are written.

`Number.ofText?` knows a number by its form alone. Whether the form has a value is asked where the number is looked at:
`Number.isReadable` holds of integers of 128 bits, with or without a sign, and of floats that do not overflow.
-/
import SqlAccess.Numeral.Binary64

namespace SqlAccess

namespace Toml

/-- A number without its underscores; `special` are the infinities and not-a-number. -/
inductive Number where
  | decimal (written : Text)
  | based (base : Nat) (digits : Text)
  | float (written : Text)
  | special
  deriving DecidableEq, Repr

namespace Number

/-! ## Forms -/

/-- Whether every underscore has a digit on either side. `before` says so of what stands in front of the text. -/
def isGrouped (isDigit : Char → Bool) (before : Bool) : Text → Bool
  | [] => true
  | c :: r =>
    if c == '_' then before && r.head?.any isDigit && isGrouped isDigit false r
    else isGrouped isDigit (isDigit c) r

/-- behind a run of digits and underscores with a digit in it; a zero may lead other digits only if `zeroLeads` -/
def digitRun (zeroLeads : Bool) (s : Text) : Option Text :=
  let inRun (c : Char) := c.isDigit || c == '_'
  let run := s.takeWhile inRun
  let count := run.countP Char.isDigit
  if count = 0 ∨ (1 < count ∧ run.head? = some '0' ∧ !zeroLeads) then none else some (s.dropWhile inRun)

/-- behind a fraction, where there is one -/
def fractionPart : Text → Option Text
  | '.' :: r => digitRun true r
  | r => some r

/-- behind an exponent, where there is one -/
def exponentPart : Text → Option Text
  | [] => some []
  | mark :: r =>
    if mark != 'e' && mark != 'E' then some (mark :: r)
    else match r with
      | '+' :: r => digitRun true r
      | '-' :: r => digitRun true r
      | r => digitRun true r

/-- whole digits, then a fraction, an exponent or both, and nothing else -/
def isFloat (body : Text) : Bool :=
  ((digitRun false body).bind fractionPart).bind exponentPart == some []

/-- A whole number in base ten behind its sign. Behind an underscore any character may follow. -/
def isDecimal (body : Text) : Bool :=
  match body.dropWhile Char.isDigit with
  | [] => body == ['0'] || body.head?.any (· != '0')
  | c :: _ => c == '_' && body.head? != some '0'

def ofDigits? (base : Nat) (body : Text) : Option Number :=
  let isBaseDigit (c : Char) := (Text.digitIn? base c).isSome
  if body.all (fun c => c == '_' || isBaseDigit c) && isGrouped isBaseDigit false body then
    some (.based base (body.filter (· != '_')))
  else none

/-- a number in base ten with what stands behind its sign -/
def ofBody? (s body : Text) : Option Number :=
  let signed := body.length < s.length
  let written := s.filter (· != '_')
  if body = "inf" ∨ body = "nan" then some .special
  else if (body.dropWhile Char.isDigit).any fun c => c == '.' || c == 'e' || c == 'E' then
    if isFloat body && isGrouped Char.isDigit signed body then some (.float written) else none
  else if isDecimal body && isGrouped (fun c => (Text.digitIn? 16 c).isSome) signed body then some (.decimal written)
  else none

/-- The number of a form: base sixteen, eight or two without a sign, or base ten with an optional one. -/
def ofText? : Text → Option Number
  | '0' :: 'x' :: r => ofDigits? 16 r
  | '0' :: 'o' :: r => ofDigits? 8 r
  | '0' :: 'b' :: r => ofDigits? 2 r
  | '+' :: r => ofBody? ('+' :: r) r
  | '-' :: r => ofBody? ('-' :: r) r
  | s => ofBody? s s

/-! ## Values -/

/-- the integers of 128 bits, with or without a sign -/
def range : Integer.Range := ⟨true, -(Nat.pow 2 127 : Nat), (Nat.pow 2 128 : Nat) - 1⟩

def isReadable : Number → Bool
  | .decimal written => (Integer.read range written).toOption.isSome
  | .based base digits => !digits.isEmpty && (Text.wholeIn? base digits).any fun n => (n : Int) ≤ range.greatest
  | .float written =>
    match (Binary64.read written).toOption.map Binary64.view with
    | some (.finite _ _ _) => true
    | _ => false
  | .special => true

end Number

end Toml

end SqlAccess
