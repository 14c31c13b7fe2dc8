/-
Tables and columns from the server's catalog. Names are looked up as string literals, with the table prefix in front.
-/
import SqlAccess.Postgres.Session

namespace SqlAccess

namespace Postgres

namespace Catalog

variable {S : Type}

/-- the statement for the names of tables, all of them or those that match a pattern -/
def tablesSql [Server S] (settings : Settings) (pattern : Option Text) : Action (Session S) Text := do
  let start : Text := "SELECT table_name FROM information_schema.tables WHERE table_schema = current_schema()"
  let order : Text := " ORDER BY table_name"
  match pattern with
  | none => return start ++ order
  | some pattern => do
    let literal ← (Session.connection settings).quoteText (settings.tablePrefix ++ pattern)
    return start ++ " AND table_name LIKE " ++ literal ++ order

/-- the schema and the table that a name stands for: what is before and after the last dot -/
def schemaAndTable (name : Text) : Option Text × Text :=
  match name.splitLast '.' with
  | some (schema, table) => (some schema, table)
  | none => (none, name)

def columnsSql [Server S] (settings : Settings) (name : Text) : Action (Session S) Text := do
  let (schema, table) := schemaAndTable name
  let schema ←
    match schema with
    | some schema => (Session.connection settings).quoteText schema
    | none => pure "current_schema()"
  let table ← (Session.connection settings).quoteText (settings.tablePrefix ++ table)
  return "SELECT column_name, data_type, is_nullable, column_default, ordinal_position FROM information_schema.columns " ++
    "WHERE table_schema = " ++ schema ++ " AND table_name = " ++ table ++ " ORDER BY ordinal_position"

def fetch [Server S] (settings : Settings) (sql : Text) : Action (Session S) (Cursor RowSet) := do
  let outcome ← Session.execute settings .select sql
  Action.ofExcept outcome.cursor

/-- the names of the tables, all of them or those that match a pattern -/
def tables [Server S] (settings : Settings) (pattern : Option Text) : Action (Session S) (List Text) := do
  let sql ← tablesSql settings pattern
  let cursor ← fetch settings sql
  let names ← Action.ofExcept (cursor.pluck "table_name").1
  return names.filterMap id

def columns [Server S] (settings : Settings) (name : Text) : Action (Session S) (List ColumnInfo) := do
  let sql ← columnsSql settings name
  let cursor ← fetch settings sql
  Action.ofExcept (cursor.fetchAllAs ColumnInfo.ofRow).1

end Catalog

end Postgres

end SqlAccess
