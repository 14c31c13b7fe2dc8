/-
What running a statement hands back: rows for a select, a receipt for any other kind.
-/
import SqlAccess.Result.Cursor

namespace SqlAccess

/-- rows under a cursor, or the receipt of a statement without rows -/
inductive Outcome where
  | rows (cursor : Cursor RowSet)
  | receipt (receipt : Receipt)
  deriving Repr

namespace Outcome

/-- rows in memory, under a new cursor -/
def ofRowSet (set : RowSet) : Outcome := .rows (Cursor.ofResult set)

def cursor : Outcome → Except Error (Cursor RowSet)
  | .rows cursor => .ok cursor
  | .receipt r => .error (.validation (.noRows r))

def insertId : Outcome → Option Int
  | .rows _ => none
  | .receipt r => r.insertId

/-- affected rows; for a select the number of rows -/
def affected : Outcome → Nat
  | .rows cursor => cursor.total.toNat
  | .receipt r => r.count

end Outcome

end SqlAccess
