/-
Dates and times of day in the ISO forms that databases read.

A year has at least four digits, with `+` above 9999 and `-` below zero. A fraction of a second is left out or has three,
six or nine digits. Nanoseconds from a thousand million on stand for a leap second and show as the second after. An
instant is kept in universal time and written in the local time of its offset, the offset rounded to a minute.
-/
import SqlAccess.Numeral.Integer

namespace SqlAccess

/-- a day of the proleptic Gregorian calendar -/
structure Date where
  year : Int
  month : Nat
  day : Nat
  deriving DecidableEq, Repr

/-- a time of day; `nanos` reaches past a second within a leap second -/
structure TimeOfDay where
  hour : Nat
  minute : Nat
  second : Nat
  nanos : Nat
  deriving DecidableEq, Repr

structure DateTime where
  date : Date
  time : TimeOfDay
  deriving DecidableEq, Repr

/-- an instant in universal time, with the offset of the place it is shown at, in seconds east -/
structure Instant where
  universal : DateTime
  offset : Int
  deriving DecidableEq, Repr

namespace Date

/-- divisible by four, and by four hundred if by a hundred -/
def isLeapYear (year : Int) : Bool := year % 4 == 0 && (year % 100 != 0 || year % 400 == 0)

def daysInMonth (year : Int) (month : Nat) : Nat :=
  if month = 2 then if isLeapYear year then 29 else 28
  else if month = 4 ∨ month = 6 ∨ month = 9 ∨ month = 11 then 30
  else 31

def next (d : Date) : Date :=
  if d.day < daysInMonth d.year d.month then { d with day := d.day + 1 }
  else if d.month < 12 then ⟨d.year, d.month + 1, 1⟩
  else ⟨d.year + 1, 1, 1⟩

def previous (d : Date) : Date :=
  if 1 < d.day then { d with day := d.day - 1 }
  else if 1 < d.month then ⟨d.year, d.month - 1, daysInMonth d.year (d.month - 1)⟩
  else ⟨d.year - 1, 12, 31⟩

/-- four digits at least, and a sign outside 0 to 9999 -/
def yearText (year : Int) : Text :=
  let digits := Text.padded 4 year.natAbs
  if year < 0 then '-' :: digits else if 9999 < year then '+' :: digits else digits

def text (d : Date) : Text := yearText d.year ++ "-" ++ Text.padded 2 d.month ++ "-" ++ Text.padded 2 d.day

end Date

namespace TimeOfDay

/-- a fraction of a second: nothing, or a point and the fewest of three, six or nine digits that hold it -/
def fractionText (nanos : Nat) : Text :=
  if nanos = 0 then []
  else if nanos % 1_000_000 = 0 then '.' :: Text.padded 3 (nanos / 1_000_000)
  else if nanos % 1_000 = 0 then '.' :: Text.padded 6 (nanos / 1_000)
  else '.' :: Text.padded 9 nanos

/-- hours, minutes, seconds and the fraction; a leap second shows as the second after -/
def text (t : TimeOfDay) : Text :=
  let (second, nanos) := if 1_000_000_000 ≤ t.nanos then (t.second + 1, t.nanos - 1_000_000_000) else (t.second, t.nanos)
  Text.padded 2 t.hour ++ ":" ++ Text.padded 2 t.minute ++ ":" ++ Text.padded 2 second ++ fractionText nanos

def seconds (t : TimeOfDay) : Nat := t.hour * 3600 + t.minute * 60 + t.second

def ofSeconds (n nanos : Nat) : TimeOfDay := ⟨n / 3600, n / 60 % 60, n % 60, nanos⟩

end TimeOfDay

namespace DateTime

/-- date and time with `separator` between them -/
def text (separator : Text) (t : DateTime) : Text := t.date.text ++ separator ++ t.time.text

/-- Shifted by an offset of less than a day; the fraction, and with it a leap second, stays. -/
def shifted (t : DateTime) (offset : Int) : DateTime :=
  let total := (t.time.seconds : Int) + offset
  let time := TimeOfDay.ofSeconds (total % 86400).toNat t.time.nanos
  let date := if total < 0 then t.date.previous else if 86400 ≤ total then t.date.next else t.date
  ⟨date, time⟩

end DateTime

namespace Instant

/-- sign, hours and minutes, the offset rounded to the nearest minute and a half away from zero -/
def offsetText (offset : Int) : Text :=
  let minutes := (offset.natAbs + 30) / 60
  (if offset < 0 then "-" else "+") ++ Text.padded 2 (minutes / 60) ++ ":" ++ Text.padded 2 (minutes % 60)

/-- local date and time, then the offset -/
def text (t : Instant) : Text := (t.universal.shifted t.offset).text "T" ++ offsetText t.offset

end Instant

end SqlAccess
