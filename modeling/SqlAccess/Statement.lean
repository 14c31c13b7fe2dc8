/-
Statements built by calls, of all four kinds.

A statement is compiled for a connection, turned into a query (for placeholders left in its expressions), or compiled and
run at once.
-/
import SqlAccess.Query
import SqlAccess.Statement.Delete
import SqlAccess.Statement.Insert
import SqlAccess.Statement.Select
import SqlAccess.Statement.Update

namespace SqlAccess

inductive Statement where
  | select (s : Select)
  | insert (s : Insert)
  | update (s : Update)
  | delete (s : Delete)

namespace Statement

def kind : Statement → StatementKind
  | .select _ => .select
  | .insert _ => .insert
  | .update _ => .update
  | .delete _ => .delete

variable {σ : Type}

def compile (conn : Connection σ) : Statement → Action σ Text
  | .select s => s.compile conn
  | .insert s => s.compile conn
  | .update s => s.compile conn
  | .delete s => s.compile conn

def toQuery (conn : Connection σ) (s : Statement) : Action σ Query := do
  let sql ← s.compile conn
  return Query.of s.kind sql

def execute (conn : Connection σ) (s : Statement) : Action σ Outcome := do
  let sql ← s.compile conn
  conn.execute s.kind sql

end Statement

end SqlAccess
