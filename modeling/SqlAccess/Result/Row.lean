/-
Rows of a result: column names and the values under them as texts, a missing value for SQL NULL.

A row may hold fewer or more values than it has names, and a name may stand twice. Every accessor by name goes by the
first column of that name.
-/
import SqlAccess.Text.Reading

namespace SqlAccess

structure Row where
  columns : List Text
  values : List (Option Text)
  deriving DecidableEq, Repr

namespace Row

/-- the place of a column, by its first occurrence -/
def indexOf? (row : Row) (column : Text) : Option Nat := row.columns.idxOf? column

/-- the value at a place; none for NULL or past the end -/
def at? (row : Row) (index : Nat) : Option Text := row.values[index]?.join

/-- the value of a column; none for NULL or an unknown column -/
def get? (row : Row) (column : Text) : Option Text := (row.indexOf? column).bind row.at?

def require (row : Row) (column : Text) : Except Error Text :=
  match row.indexOf? column with
  | none => .error (.decode column .noSuchColumn)
  | some index =>
    match row.at? index with
    | none => .error (.decode column .unexpectedNull)
    | some value => .ok value

/-- The value of a column through a reader; none for NULL. -/
def read {α : Type} (reader : Text → Except Unreadable α) (row : Row) (column : Text) : Except Error (Option α) :=
  match row.indexOf? column with
  | none => .error (.decode column .noSuchColumn)
  | some _ =>
    match row.get? column with
    | none => .ok none
    | some value =>
      match reader value with
      | .ok a => .ok (some a)
      | .error fault => .error (.decode column (.unreadable value fault))

/-- names and values side by side, as far as both go -/
def pairs (row : Row) : List (Text × Option Text) := row.columns.zip row.values

end Row

/-! ## Columns of a table -/

structure ColumnInfo where
  name : Text
  dataType : Text
  nullable : Bool
  default? : Option Text
  ordinal : Nat
  deriving DecidableEq, Repr

/-- A row of the catalog as a column. An ordinal that is NULL counts as zero. -/
def ColumnInfo.ofRow (row : Row) : Except Error ColumnInfo := do
  let name ← row.require "column_name"
  let dataType ← row.require "data_type"
  let nullable ← row.require "is_nullable"
  let ordinal ← row.read (Text.readInteger (.unsigned 32)) "ordinal_position"
  return ⟨name, dataType, nullable = "YES", row.get? "column_default", (ordinal.getD 0).toNat⟩

end SqlAccess
