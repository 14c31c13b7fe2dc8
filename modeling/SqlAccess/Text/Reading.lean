/-
Readers of plain values from text, for settings and for the values of rows.
-/
import SqlAccess.Error

namespace SqlAccess

namespace Text

def readInteger (range : Integer.Range) (t : Text) : Except Unreadable Int :=
  (Integer.read range t).mapError .integer

def readFloat (t : Text) : Except Unreadable Binary64 := (Binary64.read t).mapError .float

/-- `true` or `false` -/
def readBoolean (t : Text) : Except Unreadable Bool :=
  if t = "true" then .ok true else if t = "false" then .ok false else .error .notBoolean

def readCharacter : Text → Except Unreadable Char
  | [] => .error .noCharacter
  | [c] => .ok c
  | _ => .error .manyCharacters

end Text

end SqlAccess
