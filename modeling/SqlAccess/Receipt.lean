/-
What a statement that returns no rows reports.
-/
import SqlAccess.Numeral.Integer

namespace SqlAccess

/-- the id and count of an insert, or the count of any other statement without rows -/
inductive Receipt where
  | inserted (id : Option Int) (affected : Nat)
  | affected (count : Nat)
  deriving DecidableEq, Repr

namespace Receipt

def idText : Option Int → Text
  | none => "None"
  | some id => "Some(" ++ Text.ofInt id ++ ")"

def inspected : Receipt → Text
  | .inserted id count => "Inserted \x7b id: " ++ idText id ++ ", affected: " ++ Text.ofNat count ++ " \x7d"
  | .affected count => "Affected(" ++ Text.ofNat count ++ ")"

def count : Receipt → Nat
  | .inserted _ count => count
  | .affected count => count

def insertId : Receipt → Option Int
  | .inserted id _ => id
  | .affected _ => none

end Receipt

end SqlAccess
