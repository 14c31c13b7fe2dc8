/-
A read-only cursor over the rows of a result, and rows held in memory.

A cursor moves freely, its position a word of 64 bits that wraps, and looks at the row count that was read when it was
made. `Cursor.step` is one turn of its iteration: it gives the row, the absence or the error at the position and moves on,
and past the count it stays. All bulk reads are runs of `step` from the first row.
-/
import SqlAccess.Result.Row

namespace SqlAccess

/-- A result as the server's library holds it: a count, rows by index, and a release that ends its use. -/
class NativeResult (ν : Type) where
  rowCount : ν → UInt64
  fetchRow : UInt64 → ν → Except Error (Option Row) × ν
  release : ν → ν

/-! ## Rows in memory -/

structure RowSet where
  columns : List Text
  rows : List (List (Option Text))
  deriving DecidableEq, Repr

namespace RowSet

def empty : RowSet := ⟨[], []⟩

/-- the first column of the first row; none for NULL -/
def firstValue? (set : RowSet) : Option Text := (set.rows.head?.bind List.head?).join

def row? (set : RowSet) (index : Nat) : Option Row := set.rows[index]?.map fun values => ⟨set.columns, values⟩

instance : NativeResult RowSet where
  rowCount set := UInt64.ofNat set.rows.length
  fetchRow index set := (.ok (set.row? index.toNat), set)
  release set := { set with rows := [] }

end RowSet

/-! ## Cursors -/

/-- a result, the count read when the cursor was made, and the position -/
structure Cursor (ν : Type) where
  result : ν
  total : UInt64
  position : UInt64
  deriving Repr

namespace Cursor

variable {ν α : Type}

def ofResult [NativeResult ν] (result : ν) : Cursor ν := ⟨result, NativeResult.rowCount result, 0⟩

def valid (c : Cursor ν) : Bool := c.position < c.total

/-- Moves to an index of the result; anywhere else it stays and says so. -/
def seek (index : UInt64) (c : Cursor ν) : Bool × Cursor ν :=
  if index < c.total then (true, { c with position := index }) else (false, c)

def rewind (c : Cursor ν) : Cursor ν := { c with position := 0 }

/-- one row on, wrapping past the last word -/
def next (c : Cursor ν) : Cursor ν := { c with position := c.position + 1 }

/-- one row back, wrapping below zero -/
def previous (c : Cursor ν) : Cursor ν := { c with position := c.position - 1 }

/-- the row at an index; past the count the result is not asked -/
def get [NativeResult ν] (index : UInt64) (c : Cursor ν) : Except Error (Option Row) × Cursor ν :=
  if index < c.total then
    let (answer, result) := NativeResult.fetchRow index c.result
    (answer, { c with result })
  else (.ok none, c)

def current [NativeResult ν] (c : Cursor ν) : Except Error (Option Row) × Cursor ν := c.get c.position

/-- results cannot be written: the row at an index stays -/
def set (_index : UInt64) (_row : Row) (_c : Cursor ν) : Except Error Unit := .error .readOnly

/-- results cannot be written: the row at an index stays -/
def remove (_index : UInt64) (_c : Cursor ν) : Except Error Unit := .error .readOnly

/-- the end of the cursor: its result is released -/
def close [NativeResult ν] (c : Cursor ν) : ν := NativeResult.release c.result

def inspected (c : Cursor ν) : Text :=
  "Cursor \x7b total: " ++ Text.ofNat c.total.toNat ++ ", position: " ++ Text.ofNat c.position.toNat ++
    ", released: false \x7d"

/-! ## Iteration -/

/-- One turn of the iteration: nothing and no move past the count, else what the row is and one row on. -/
def step [NativeResult ν] (c : Cursor ν) : Option (Except Error Row) × Cursor ν :=
  if c.valid then
    match c.current with
    | (.ok none, c) => (none, c.next)
    | (.ok (some row), c) => (some (.ok row), c.next)
    | (.error e, c) => (some (.error e), c.next)
  else (none, c)

/-- the least and greatest number of items the iteration may still give -/
def sizeHint (c : Cursor ν) : Nat × Nat := (0, c.total.toNat - c.position.toNat)

/-- At most `turns` turns, each row through `f`, up to the first turn that gives no row or an error. -/
def gather [NativeResult ν] (f : Row → Except Error α) : Nat → Cursor ν → Except Error (List α) × Cursor ν
  | 0, c => (.ok [], c)
  | turns + 1, c =>
    match c.step with
    | (none, c) => (.ok [], c)
    | (some (.error e), c) => (.error e, c)
    | (some (.ok row), c) =>
      match f row with
      | .error e => (.error e, c)
      | .ok a =>
        match gather f turns c with
        | (.ok as, c) => (.ok (a :: as), c)
        | (.error e, c) => (.error e, c)

/-- all rows from the first on, each through `f` -/
def fetchAllAs [NativeResult ν] (f : Row → Except Error α) (c : Cursor ν) : Except Error (List α) × Cursor ν :=
  c.rewind.gather f c.total.toNat

def fetchAll [NativeResult ν] (c : Cursor ν) : Except Error (List Row) × Cursor ν := c.fetchAllAs .ok

/-- one column of all rows -/
def pluck [NativeResult ν] (column : Text) (c : Cursor ν) : Except Error (List (Option Text)) × Cursor ν :=
  c.fetchAllAs fun row => .ok (row.get? column)

end Cursor

end SqlAccess
