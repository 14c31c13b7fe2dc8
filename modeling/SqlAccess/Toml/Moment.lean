/-
The moments of TOML: a day, a time of day, or both, and then perhaps an offset from universal time.

`Moment.ofText?` reads a moment in any of its spellings, `Moment.text` writes it in one: `T` between day and time, seconds
always given, a fraction of at most nine digits without zeros at its end.
-/
import SqlAccess.Time.Calendar

namespace SqlAccess

namespace Toml

/-- an offset from universal time: none at all, or minutes east -/
inductive Offset where
  | universal
  | minutes (east : Int)
  deriving DecidableEq, Repr

/-- a day, a time of day, or both; only both have an offset -/
structure Moment where
  date : Option Date
  time : Option TimeOfDay
  offset : Option Offset
  deriving DecidableEq, Repr

namespace Moment

/-! ## Reading -/

/-- the number that two digits write, if it is within bounds -/
def twoDigits (least greatest : Nat) (a b : Char) : Option Nat :=
  if a.isDigit && b.isDigit then
    let n := Text.digitValue a * 10 + Text.digitValue b
    if least ≤ n ∧ n ≤ greatest then some n else none
  else none

def date? : Text → Option (Date × Text)
  | y1 :: y2 :: y3 :: y4 :: '-' :: m1 :: m2 :: '-' :: d1 :: d2 :: r =>
    if [y1, y2, y3, y4].all Char.isDigit then
      let year := [y1, y2, y3, y4].foldl (fun n c => n * 10 + Text.digitValue c) 0
      (twoDigits 1 12 m1 m2).bind fun month =>
        (twoDigits 1 (Date.daysInMonth year month) d1 d2).map fun day => (⟨year, month, day⟩, r)
    else none
  | _ => none

/-- the nanoseconds of a fraction, whose digits beyond the ninth do not count -/
def nanosOf (digits : Text) : Nat :=
  (digits.take 9 ++ List.replicate (9 - digits.length) '0').foldl (fun n c => n * 10 + Text.digitValue c) 0

/-- seconds with the nanoseconds of a fraction, zero where there are none -/
def seconds? : Text → Option ((Nat × Nat) × Text)
  | ':' :: a :: b :: r =>
    (twoDigits 0 60 a b).bind fun second =>
      match r with
      | '.' :: r =>
        let digits := r.takeWhile Char.isDigit
        if digits.isEmpty then none else some ((second, nanosOf digits), r.dropWhile Char.isDigit)
      | r => some ((second, 0), r)
  | r => some ((0, 0), r)

def time? : Text → Option (TimeOfDay × Text)
  | h1 :: h2 :: ':' :: m1 :: m2 :: r =>
    (twoDigits 0 23 h1 h2).bind fun hour =>
      (twoDigits 0 59 m1 m2).bind fun minute =>
        (seconds? r).map fun ((second, nanos), r) => (⟨hour, minute, second, nanos⟩, r)
  | _ => none

/-- an offset up to the end of the text, or nothing at all -/
def offset? : Text → Option (Option Offset)
  | [] => some none
  | ['Z'] => some (some .universal)
  | ['z'] => some (some .universal)
  | [sign, h1, h2, ':', m1, m2] =>
    (twoDigits 0 23 h1 h2).bind fun hours =>
      (twoDigits 0 59 m1 m2).bind fun minutes =>
        let east : Int := hours * 60 + minutes
        if sign == '+' then some (some (.minutes east))
        else if sign == '-' then some (some (.minutes (-east)))
        else none
  | _ => none

/-- a moment; a letter `T` or a blank stands between day and time -/
def ofText? (s : Text) : Option Moment :=
  match date? s with
  | some (date, []) => some ⟨some date, none, none⟩
  | some (date, c :: r) =>
    if c == 'T' || c == 't' || c == ' ' then
      (time? r).bind fun (time, r) => (offset? r).map fun offset => ⟨some date, some time, offset⟩
    else none
  | none =>
    match time? s with
    | some (time, []) => some ⟨none, some time, none⟩
    | _ => none

/-! ## Writing -/

/-- a fraction of a second without zeros at its end -/
def fractionText (nanos : Nat) : Text :=
  if nanos = 0 then [] else '.' :: ((Text.padded 9 nanos).reverse.dropWhile (· == '0')).reverse

def timeText (t : TimeOfDay) : Text :=
  Text.padded 2 t.hour ++ ":" ++ Text.padded 2 t.minute ++ ":" ++ Text.padded 2 t.second ++ fractionText t.nanos

/-- `Z`, or sign, hours and minutes -/
def offsetText : Offset → Text
  | .universal => "Z"
  | .minutes east =>
    (if east < 0 then "-" else "+") ++ Text.padded 2 (east.natAbs / 60) ++ ":" ++ Text.padded 2 (east.natAbs % 60)

def text (m : Moment) : Text :=
  Text.joined "T" ((m.date.map Date.text).toList ++ (m.time.map timeText).toList) ++ (m.offset.map offsetText).getD []

end Moment

end Toml

end SqlAccess
