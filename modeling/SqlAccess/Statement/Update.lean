/-
Updates: a table, assignments and a filter.
-/
import SqlAccess.Clause

namespace SqlAccess

structure Update where
  table : Option Identifier
  assignments : List (Identifier × Value)
  filter : List Condition

namespace Update

def of (table : Option Identifier) : Update := ⟨table, [], []⟩

inductive Call where
  | table (table : Identifier)
  | assign (assignments : List (Identifier × Value))
  | filter (condition : Condition)

def step (s : Update) : Call → Update
  | .table table => { s with table := some table }
  | .assign assignments => { s with assignments := s.assignments ++ assignments }
  | .filter condition => { s with filter := s.filter ++ [condition] }

def run (s : Update) (calls : List Call) : Update := calls.foldl step s

variable {σ : Type}

/-- the text of an update that has a table and assignments -/
def compile (conn : Connection σ) (s : Update) : Action σ Text :=
  match s.table with
  | none => throw (.validation .updateWithoutTable)
  | some table =>
    if s.assignments.isEmpty then throw (.validation .updateWithoutColumns)
    else do
      let table ← conn.quoteTable table
      let assignments ← conn.compileAssignments s.assignments
      let filter ← conn.compileFilter "WHERE" s.filter
      return "UPDATE " ++ table ++ " SET " ++ assignments ++ filter

end Update

end SqlAccess
