/-
References to tables and columns as the caller writes them, and their text for the server.

Every name comes out in quotes, whatever its spelling. The table prefix goes in front of the part that names a table: the
last part of a table, the last but one of a column. An alias follows as ` AS ` and its quoted name, and an expression is
left as it is.
-/
import SqlAccess.Identifier.Path

namespace SqlAccess

/-- a path of names with an optional alias (`label`), or SQL that is never quoted -/
inductive Identifier where
  | name (path : Text) (label : Option Text)
  | expression (sql : Text)
  deriving DecidableEq, Repr

namespace Identifier

/-- the parts of a name, none for an expression -/
def path? : Identifier → Except Error (Option Path)
  | .name path _ => (Path.read path).mapError .validation |>.map some
  | .expression _ => .ok none

def aliasText : Option Text → Text
  | none => []
  | some label => " AS " ++ delimited label

/-- the place of the table in the path of a column, if it names one -/
def tableOfColumn (path : Path) : Option Nat := if 2 ≤ path.length then some (path.length - 2) else none

def asColumn (tablePrefix : Text) : Identifier → Except Error Text
  | .expression sql => .ok sql
  | .name path label =>
    match Path.read path with
    | .error e => .error (.validation e)
    | .ok parts => .ok (parts.quoted tablePrefix (tableOfColumn parts) ++ aliasText label)

def asTable (tablePrefix : Text) : Identifier → Except Error Text
  | .expression sql => .ok sql
  | .name path label =>
    match Path.read path with
    | .error e => .error (.validation e)
    | .ok parts =>
      if .star ∈ parts then .error (.validation (.starTable path))
      else .ok (parts.quoted tablePrefix (some (parts.length - 1)) ++ aliasText label)

end Identifier

end SqlAccess
