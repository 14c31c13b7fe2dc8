/-
Deletes: a table and a filter.
-/
import SqlAccess.Clause

namespace SqlAccess

structure Delete where
  table : Option Identifier
  filter : List Condition

namespace Delete

def of (table : Option Identifier) : Delete := ⟨table, []⟩

inductive Call where
  | table (table : Identifier)
  | filter (condition : Condition)

def step (s : Delete) : Call → Delete
  | .table table => { s with table := some table }
  | .filter condition => { s with filter := s.filter ++ [condition] }

def run (s : Delete) (calls : List Call) : Delete := calls.foldl step s

variable {σ : Type}

/-- the text of a delete that has a table -/
def compile (conn : Connection σ) (s : Delete) : Action σ Text :=
  match s.table with
  | none => throw (.validation .deleteWithoutTable)
  | some table => do
    let table ← conn.quoteTable table
    let filter ← conn.compileFilter "WHERE" s.filter
    return "DELETE FROM " ++ table ++ filter

end Delete

end SqlAccess
