/-
Values that a statement carries until a connection writes them as literals, and the plain things that become values.

Integers become `integer`, floats `float`, and everything with a standard text form (dates, times, universally unique ids,
JSON) becomes that text. An absent option is `null`, a list is a `list` of its items' values.
-/
import SqlAccess.Json
import SqlAccess.Time.Calendar

namespace SqlAccess

/-- a value of a statement; `expression` is SQL that is never quoted -/
inductive Value where
  | null
  | boolean (b : Bool)
  | integer (n : Int)
  | float (x : Binary64)
  | text (t : Text)
  | list (items : List Value)
  | expression (sql : Text)

namespace Value

instance : Inhabited Value := ⟨.null⟩

/-- whether a value is the null value; a list is not, even an empty one -/
def isNull : Value → Bool
  | .null => true
  | _ => false

mutual

/-- Equality of values, floats compared as numbers. -/
def same : Value → Value → Bool
  | .null, .null => true
  | .boolean a, .boolean b => a == b
  | .integer a, .integer b => a == b
  | .float a, .float b => a.same b
  | .text a, .text b => a == b
  | .list a, .list b => sameAll a b
  | .expression a, .expression b => a == b
  | _, _ => false

def sameAll : List Value → List Value → Bool
  | [], [] => true
  | a :: as, b :: bs => same a b && sameAll as bs
  | _, _ => false

end

/-! ## What becomes a value -/

def ofOption {α : Type} (of : α → Value) (a : Option α) : Value := a.elim .null of

def ofList {α : Type} (of : α → Value) (as : List α) : Value := .list (as.map of)

def ofDate (d : Date) : Value := .text d.text

def ofTime (t : TimeOfDay) : Value := .text t.text

/-- a date with a time, a blank between them -/
def ofDateTime (t : DateTime) : Value := .text (t.text " ")

/-- an instant in local time with its offset -/
def ofInstant (t : Instant) : Value := .text t.text

/-- JSON as its compact text -/
def ofJson (j : Json) : Value := .text j.render

/-- A universally unique id: 32 hexadecimal digits in groups of 8, 4, 4, 4 and 12. -/
def ofUuid (n : Nat) : Value :=
  let digits := Nat.toDigits 16 n
  let all := List.replicate (32 - digits.length) '0' ++ digits
  .text (Text.joined ['-']
    [all.take 8, (all.drop 8).take 4, (all.drop 12).take 4, (all.drop 16).take 4, all.drop 20])

end Value

end SqlAccess
