/-
JSON values and their compact text: no spaces, object keys in code point order, a repeated key keeping its last value.

Texts are written raw but for quotes, backslashes and the control characters below a space.
-/
import SqlAccess.Numeral.Shortest
import SqlAccess.Table

namespace SqlAccess

inductive Json where
  | null
  | boolean (b : Bool)
  | integer (n : Int)
  | float (x : Binary64)
  | text (t : Text)
  | array (items : List Json)
  | object (members : List (Text × Json))
  deriving Inhabited

namespace Json

/-- the four hexadecimal digits of a code below 2^16 -/
def hexCode (n : Nat) : Text :=
  let digits := Nat.toDigits 16 n
  List.replicate (4 - digits.length) '0' ++ digits

def escapedChar (c : Char) : Text :=
  if c = '"' then "\\\""
  else if c = '\\' then "\\\\"
  else if c = '\n' then "\\n"
  else if c = '\r' then "\\r"
  else if c = '\t' then "\\t"
  else if c.val = 8 then "\\b"
  else if c.val = 12 then "\\f"
  else if c.val < 32 then "\\u" ++ hexCode c.toNat
  else [c]

def quoted (t : Text) : Text := '"' :: (t.flatMap escapedChar ++ ['"'])

/-- the members of an object, keys quoted and values written, in key order -/
def objectText (members : List (Text × Text)) : Text :=
  '\x7b' :: (Text.joined [','] ((Table.ofList members).map fun (k, v) => quoted k ++ ':' :: v) ++ ['\x7d'])

mutual

/-- the compact text of a value; a number that is none is written as null -/
def render : Json → Text
  | .null => "null"
  | .boolean b => if b then "true" else "false"
  | .integer n => Text.ofInt n
  | .float x =>
    match x.decimal? .even with
    | some (negative, d) => Binary64.signed negative (d.scientific .json)
    | none => "null"
  | .text t => quoted t
  | .array items => '[' :: (Text.joined [','] (renderItems items) ++ [']'])
  | .object members => objectText (renderMembers members)

def renderItems : List Json → List Text
  | [] => []
  | j :: js => render j :: renderItems js

def renderMembers : List (Text × Json) → List (Text × Text)
  | [] => []
  | (k, j) :: ms => (k, render j) :: renderMembers ms

end

end Json

end SqlAccess
