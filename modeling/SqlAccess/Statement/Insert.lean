/-
Inserts: a table, columns and rows.

Rows come bare or with their columns. The first row with columns sets the columns when there are none; one whose columns
differ is a misuse: it is not stored, and the insert reports it when it is compiled.
-/
import SqlAccess.Clause

namespace SqlAccess

structure Insert where
  table : Option Identifier
  columns : List Identifier
  rows : List (List Value)
  misuse : Option Invalid

namespace Insert

def of (table : Option Identifier) : Insert := ⟨table, [], [], none⟩

inductive Call where
  | table (table : Identifier)
  | columns (columns : List Identifier)
  | row (values : List Value)
  | values (assignments : List (Identifier × Value))

/-- the first misuse is the one that is kept -/
def noting (s : Insert) (fault : Invalid) : Insert := { s with misuse := s.misuse.or (some fault) }

/-- a row that names its columns -/
def addNamed (s : Insert) (assignments : List (Identifier × Value)) : Insert :=
  let columns := assignments.map Prod.fst
  let row := assignments.map Prod.snd
  if s.columns.isEmpty then { s with columns, rows := s.rows ++ [row] }
  else if s.columns = columns then { s with rows := s.rows ++ [row] }
  else s.noting .columnsDiffer

def step (s : Insert) : Call → Insert
  | .table table => { s with table := some table }
  | .columns columns => { s with columns := s.columns ++ columns }
  | .row values => { s with rows := s.rows ++ [values] }
  | .values assignments => s.addNamed assignments

def run (s : Insert) (calls : List Call) : Insert := calls.foldl step s

variable {σ : Type}

def tuple (values : List Text) : Text := '(' :: (Text.joined [',', ' '] values ++ [')'])

/-- Rows from number `index` on, each as wide as the columns. -/
def compileRows (conn : Connection σ) (width index : Nat) : List (List Value) → Action σ (List Text)
  | [] => pure []
  | row :: rows =>
    if row.length ≠ width then throw (.validation (.rowWidth index row.length width))
    else do
      let values ← conn.quoteAll row
      let others ← compileRows conn width (index + 1) rows
      return tuple values :: others

/-- the text of an insert that was not misused and has a table, columns and rows -/
def compile (conn : Connection σ) (s : Insert) : Action σ Text :=
  match s.misuse, s.table with
  | some fault, _ => throw (.validation fault)
  | none, none => throw (.validation .insertWithoutTable)
  | none, some table =>
    if s.columns.isEmpty then throw (.validation .insertWithoutColumns)
    else if s.rows.isEmpty then throw (.validation .insertWithoutRows)
    else do
      let rows ← compileRows conn s.columns.length 0 s.rows
      let table ← conn.quoteTable table
      let columns ← conn.compileColumns s.columns
      return "INSERT INTO " ++ table ++ " (" ++ columns ++ ") VALUES " ++ Text.joined [',', ' '] rows

end Insert

end SqlAccess
